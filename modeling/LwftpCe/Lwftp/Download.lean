import LwftpCe.Lwftp.Refine

/-!
# Downloads: two channels that race

The server answers RETR or MLSD with 150 on the control connection, writes the file on the data connection and closes it,
and sends 226 on the control connection.  The client sees the two connections in some order.  An order is a way to cut
the events of the data connection in three: those before the 150, those between the replies and those after the 226.  A
report on a block whose callbacks have been cleared reaches nobody (`deliver`).
-/

namespace LwftpCe.Lwftp

open Lib List Function Session Tcp

variable {K U : Type} {c : Caller K U} {s : Session K U} {pc p : Pcb} {k : K}

/-! ### Channels -/

def deliver (c : Caller K U) (s : Session K U) (e : Tcp) : Session K U := (step c s (.tcp e)).getD s

def Tcp.bytes : Tcp → Bytes
  | .dataRecv _ q => q.flatMap Pbuf.payload
  | _ => []

def dataEvents (p : Pcb) (segs : List (List Pbuf)) : List Tcp :=
  .dataConnected p true :: segs.map (.dataRecv p) ++ [.dataRecv p []]

def received : List (Obs K) → Bytes
  | [] => []
  | .sink (some d) :: u => received u ++ d
  | _ :: u => received u

/-- In a trace `t` that continues `t₀`: if the first call of `done_fn` after `t₀` is `OK`, then `data_sink` has got `b`. -/
def OkMeans (b : Bytes) (t₀ t : List (Obs K)) : Prop :=
  ∀ k u, .done k .ok :: (u ++ t₀) <:+ t → (∀ o ∈ u, o.isDone = false) → received u = b

/-- What the data connection has still to deliver, by what is registered on its block. -/
inductive Feeds (p : Pcb) : Option Link → List Tcp → Prop
  | connect {l : List Tcp} : Feeds p (some ⟨.data, true⟩) l → Feeds p (some ⟨.data, false⟩) (.dataConnected p true :: l)
  | segment {q : List Pbuf} {l : List Tcp} (h : q ≠ []) :
      Feeds p (some ⟨.data, true⟩) l → Feeds p (some ⟨.data, true⟩) (.dataRecv p q :: l)
  | fin : Feeds p (some ⟨.data, true⟩) [.dataRecv p []]
  | nil : Feeds p none []

lemma feeds_dataEvents (segs : List (List Pbuf)) (h : ∀ q ∈ segs, q ≠ []) : Feeds p (some ⟨.data, false⟩) (dataEvents p segs) := by
  refine .connect ?_
  induction segs with
  | nil => exact .fin
  | cons q segs ih => exact .segment (h q (by simp)) (ih fun q' hq' => h q' (by simp [hq']))

/-! ### A download in progress -/

/-- RETR or MLSD has been sent and the data connection is being established. -/
structure Ready (s : Session K U) (pc p : Pcb) : Prop where
  wf : Wf s
  fault : s.fault = false
  state : s.controlState = .retrSent ∨ s.controlState = .mlsdSent
  control : s.link pc = some ⟨.control, true⟩
  data : s.link p = some ⟨.data, false⟩
  sink : s.user.dataSink ≠ none
  done : s.user.doneFn ≠ none

/-- The download in the state `st`, started at the trace `t₀`: `acc` has been received and `rest` is to come. -/
structure Downloading (s : Session K U) (pc p : Pcb) (st : State) (t₀ : List (Obs K)) (acc : Bytes) (rest : List Tcp) :
    Prop where
  fault : s.fault = false
  state : s.controlState = st
  control : s.link pc = some ⟨.control, true⟩
  data : s.dataPcb = none ∨ s.dataPcb = some p
  pcb : s.link p ≠ none → s.dataPcb = some p
  feeds : Feeds p (s.link p) rest
  sink : s.user.dataSink ≠ none
  done : s.user.doneFn ≠ none
  trace : ∃ u, s.trace = u ++ t₀ ∧ (∀ o ∈ u, o.isDone = false) ∧ received u = acc

lemma received_append (u v : List (Obs K)) : received (u ++ v) = received v ++ received u := by
  induction u using received.induct with
  | case1 => simp [received]
  | case2 d u ih => simp [received, ih]
  | case3 o u ho ih =>
    rw [cons_append, received, received, ih]
    · exact ho
    · exact ho

def sinks (q : List Pbuf) : List (Obs K) := (q.map fun b => Obs.sink (some b.payload)).reverse

lemma received_sinks (q : List Pbuf) : received (sinks q : List (Obs K)) = q.flatMap Pbuf.payload := by
  induction q with
  | nil => rfl
  | cons b q ih =>
    have h : (sinks (b :: q) : List (Obs K)) = sinks q ++ [.sink (some b.payload)] := by simp [sinks]
    rw [h, received_append, ih]
    simp [received]

lemma isDone_sinks (q : List Pbuf) : ∀ o ∈ (sinks q : List (Obs K)), o.isDone = false := by
  simp [sinks, Obs.isDone]

lemma sinkAll_eq (q : List Pbuf) {s : Session K U} (hk : s.user.dataSink = some k) :
    ∃ usr, sinkAll c q s = { s with usr, trace := sinks q ++ s.trace } := by
  induction q generalizing s with
  | nil => exact ⟨s.usr, rfl⟩
  | cons b q ih =>
    obtain ⟨usr, h⟩ := ih (s := { s.note (.sink (some b.payload)) with usr := c.sink k (some b.payload) s.usr }) hk
    have hb : s.callSink c (some b.payload) =
        { s.note (.sink (some b.payload)) with usr := c.sink k (some b.payload) s.usr } := by
      simp [callSink, hk]
    rw [sinkAll, hb, h]
    simp [sinks, note]

lemma deliver_eq {e : Tcp} (hf : s.fault = false) (he : e.enabled s) : deliver c s e = e.handle c s := by
  simp [deliver, step, hf, he]

lemma callDone_some (hk : s.user.doneFn = some k) (r : Result) : s.callDone c r = c.done k r (s.note (.done k r)) := by
  simp [callDone, hk]

lemma dropData_trace (s : Session K U) : (dropData s).trace = s.trace ∨ ∃ q, (dropData s).trace = .close q :: s.trace := by
  unfold dropData
  split
  · exact .inl rfl
  · exact .inr ⟨_, rfl⟩

namespace Downloading

variable {st : State} {t₀ : List (Obs K)} {acc : Bytes} {e : Tcp} {rest : List Tcp} {b : Pbuf}

lemma ne (h : Downloading s pc p st t₀ acc rest) : pc ≠ p := by
  rintro rfl
  have := h.feeds
  rw [h.control] at this
  cases this

lemma data_event (h : Downloading s pc p st t₀ acc (e :: rest)) : Downloading (deliver c s e) pc p st t₀ (acc ++ e.bytes) rest := by
  obtain ⟨k, hk⟩ := Option.ne_none_iff_exists'.1 h.sink
  obtain ⟨u, hu, hdone, hacc⟩ := h.trace
  have hfeeds := h.feeds
  generalize hl : s.link p = l at hfeeds
  cases hfeeds with
  | connect hrest =>
    rw [deliver_eq h.fault (by simp [enabled, hl])]
    refine ⟨h.fault, h.state, ?_, h.data, fun _ => h.pcb (by simp [hl]), ?_, h.sink, h.done, u, hu, hdone, ?_⟩
    · exact (update_of_ne h.ne _ _).trans h.control
    · simpa [handle, lwftpDataConnected, setLink] using hrest
    · simp [hacc, bytes]
  | @segment q _ hq hrest =>
    obtain ⟨usr, hs⟩ := sinkAll_eq (c := c) q hk
    have he : deliver c s (.dataRecv p q) = { s with usr, trace := sinks q ++ s.trace } := by
      rw [deliver_eq h.fault (by simp [enabled, hl]), ← hs]
      simp [handle, lwftpDataRecv, hq]
    rw [he]
    refine ⟨h.fault, h.state, h.control, h.data, h.pcb, by rw [hl]; exact hrest, h.sink, h.done, sinks q ++ u, ?_, ?_, ?_⟩
    · simp [hu]
    · intro o ho
      rcases mem_append.1 ho with ho | ho
      · exact isDone_sinks q o ho
      · exact hdone o ho
    · rw [received_append, received_sinks, hacc]
      rfl
  | fin =>
    have hp := h.pcb (by simp [hl])
    have he : deliver c s (.dataRecv p []) =
        { s with
          usr := c.sink k none s.usr, dataPcb := none, link := update s.link p none,
          trace := .close p :: .sink none :: .dataFin s.controlState :: s.trace } := by
      rw [deliver_eq h.fault (by simp [enabled, hl])]
      simp [handle, lwftpDataRecv, callSink, hk, dropData, hp, note, lwftpPcbClose, setLink]
    rw [he]
    refine ⟨h.fault, h.state, ?_, .inl rfl, ?_, ?_, h.sink, h.done,
      .close p :: .sink none :: .dataFin s.controlState :: u, ?_, ?_, ?_⟩
    · exact (update_of_ne h.ne _ _).trans h.control
    · simp
    · simpa using Feeds.nil
    · simp [hu]
    · simpa [Obs.isDone] using hdone
    · simp [received, hacc, bytes]

lemma data_events {d : List Tcp} (h : Downloading s pc p st t₀ acc (d ++ rest)) :
    Downloading (d.foldl (deliver c) s) pc p st t₀ (acc ++ d.flatMap bytes) rest := by
  induction d generalizing s acc with
  | nil => simpa using h
  | cons e d ih =>
    have := ih (h.data_event (c := c))
    simpa using this

lemma begin (bs : List Pbuf) (hb : response b = 150) (hst : st = .retrSent ∨ st = .mlsdSent) (h : Downloading s pc p st t₀ acc rest) :
    Downloading (deliver c s (.controlRecv pc (b :: bs) true)) pc p .xfering t₀ acc rest := by
  have he : deliver c s (.controlRecv pc (b :: bs) true) = (readReply 150 s).goto .xfering := by
    rw [deliver_eq h.fault (by simp [enabled, h.control])]
    have hst' : (readReply 150 s).controlState = st := h.state
    simp only [handle, lwftpControlRecv, if_true, cons_ne_nil, if_false]
    rw [process_pos (by simp [hb]), hb]
    rcases hst with rfl | rfl <;> simp [onReply, hst', controlEnd, goto]
  rw [he]
  obtain ⟨u, hu, hdone, hacc⟩ := h.trace
  refine ⟨h.fault, rfl, h.control, h.data, h.pcb, h.feeds, h.sink, h.done, .reply 150 s.controlState :: u, ?_, ?_, hacc⟩
  · simp [readReply, note, goto, hu]
  · simpa [Obs.isDone] using hdone

lemma finish (bs : List Pbuf) (hb : response b = 226) (h : Downloading s pc p .xfering t₀ acc rest) :
    ∃ k m u, deliver c s (.controlRecv pc (b :: bs) true) = c.done k .ok m ∧ m.fault = false ∧
      m.trace = .done k .ok :: (u ++ t₀) ∧ (∀ o ∈ u, o.isDone = false) ∧ received u = acc := by
  obtain ⟨k, hk⟩ := Option.ne_none_iff_exists'.1 h.done
  obtain ⟨u, hu, hdone, hacc⟩ := h.trace
  have he : deliver c s (.controlRecv pc (b :: bs) true) =
      (dropData ((readReply 226 s).goto .logged)).callDone c .ok := by
    rw [deliver_eq h.fault (by simp [enabled, h.control])]
    have hst' : (readReply 226 s).controlState = .xfering := h.state
    simp only [handle, lwftpControlRecv, if_true, cons_ne_nil, if_false]
    rw [process_pos (by simp [hb]), hb]
    simp [onReply, hst', controlEnd, goto, lwftpDataClose]
  obtain ⟨t, ht⟩ := dropData_eq ((readReply 226 s).goto .logged)
  have hu' : ((readReply 226 s).goto .logged).trace = .reply 226 s.controlState :: (u ++ t₀) := congrArg _ hu
  have htrace := dropData_trace ((readReply 226 s).goto .logged)
  rw [hu'] at htrace
  refine ⟨k, (dropData ((readReply 226 s).goto .logged)).note (.done k .ok), ?_⟩
  rw [he, callDone_some (by rw [ht]; exact hk)]
  have hfault : (dropData ((readReply 226 s).goto .logged)).fault = false := (dropData_fault _).trans h.fault
  rcases htrace with htrace | ⟨q, htrace⟩
  · refine ⟨.reply 226 s.controlState :: u, rfl, hfault, ?_, ?_, hacc⟩
    · exact congrArg _ htrace
    · simpa [Obs.isDone] using hdone
  · refine ⟨.close q :: .reply 226 s.controlState :: u, rfl, hfault, ?_, ?_, hacc⟩
    · exact congrArg _ htrace
    · simpa [Obs.isDone] using hdone

end Downloading

lemma deliver_moves (hc : Lawful c) (hw : Wf s) (e : Tcp) : Moves s (deliver c s e) := by
  unfold deliver
  cases h : step c s (.tcp e) with
  | none => exact .refl
  | some s' => exact step_moves hc hw h

lemma deliver_all_moves (hc : Lawful c) (hw : Wf s) (es : List Tcp) : Moves s (es.foldl (deliver c) s) := by
  induction es generalizing s with
  | nil => exact .refl
  | cons e es ih =>
    have m := deliver_moves hc hw e
    exact m.trans (ih (Moves.wf m hw))

lemma bytes_dataEvents (segs : List (List Pbuf)) :
    (dataEvents p segs).flatMap bytes = segs.flatMap fun q => q.flatMap Pbuf.payload := by
  simp [dataEvents, bytes, flatMap_map]

lemma Ready.downloading (h : Ready s pc p) (segs : List (List Pbuf)) (hsegs : ∀ q ∈ segs, q ≠ []) :
    Downloading s pc p s.controlState s.trace [] (dataEvents p segs) where
  fault := h.fault
  state := rfl
  control := h.control
  data := .inr (h.wf.linkData p false h.data)
  pcb := fun _ => h.wf.linkData p false h.data
  feeds := by
    rw [h.data]
    exact feeds_dataEvents segs hsegs
  sink := h.sink
  done := h.done
  trace := ⟨[], rfl, by simp, rfl⟩

def schedule (pc : Pcb) (q₁ q₂ : List Pbuf) (d₁ d₂ d₃ : List Tcp) : List Tcp :=
  d₁ ++ .controlRecv pc q₁ true :: d₂ ++ .controlRecv pc q₂ true :: d₃

lemma schedule_trace (hc : Lawful c) (h : Ready s pc p) (segs : List (List Pbuf)) (hsegs : ∀ q ∈ segs, q ≠ [])
    {b1 b2 : Pbuf} (q1 q2 : List Pbuf) (hb1 : response b1 = 150) (hb2 : response b2 = 226) {d1 d2 d3 : List Tcp}
    (hd : d1 ++ d2 ++ d3 = dataEvents p segs) :
    ∃ k u, .done k .ok :: (u ++ s.trace) <:+
        ((schedule pc (b1 :: q1) (b2 :: q2) d1 d2 d3).foldl (deliver c) s).trace ∧
      (∀ o ∈ u, o.isDone = false) ∧ received u = (d1 ++ d2).flatMap bytes := by
  have h0 := h.downloading segs hsegs
  rw [← hd, append_assoc] at h0
  have h1 := (h0.data_events (c := c)).begin (c := c) q1 hb1 h.state
  have h2 := h1.data_events (c := c)
  obtain ⟨k, m, u, hm, hf, htrace, hu, hrec⟩ := h2.finish q2 hb2
  refine ⟨k, u, ?_, hu, by rw [hrec]; simp⟩
  have hw : ∀ es : List Tcp, Wf (es.foldl (deliver c) s) := fun es => Moves.wf (deliver_all_moves hc h.wf es) h.wf
  have hw' := hw (d1 ++ .controlRecv pc (b1 :: q1) true :: d2 ++ [.controlRecv pc (b2 :: q2) true])
  simp only [schedule, foldl_append, foldl_cons, foldl_nil] at hw' ⊢
  rw [hm] at hw' ⊢
  rw [← htrace]
  exact (Moves.suffix (hc.moves k .ok m hf)).trans (Moves.suffix (deliver_all_moves hc hw' d3))

/-- **No truncated download, if no segment comes after the 226.**  From the moment RETR or MLSD has been sent, in every order of
the two replies with the events of the data connection, `done_fn` gets `OK` only for the whole file if and only if every segment
is processed before the 226. -/
theorem download_complete_iff (hc : Lawful c) (h : Ready s pc p) (segs : List (List Pbuf))
    (hsegs : ∀ q ∈ segs, q.flatMap Pbuf.payload ≠ []) (b₁ b₂ : Pbuf) (q₁ q₂ : List Pbuf) (hb₁ : response b₁ = 150)
    (hb₂ : response b₂ = 226) (d₁ d₂ d₃ : List Tcp) (hd : d₁ ++ d₂ ++ d₃ = dataEvents p segs) :
    OkMeans (segs.flatMap fun q => q.flatMap Pbuf.payload) s.trace
        ((schedule pc (b₁ :: q₁) (b₂ :: q₂) d₁ d₂ d₃).foldl (deliver c) s).trace ↔
      ∀ q ∈ segs, .dataRecv p q ∉ d₃ := by
  have hne : ∀ q ∈ segs, q ≠ [] := by
    rintro q hq rfl
    exact hsegs [] hq rfl
  obtain ⟨k, u, hsuf, hu, hrec⟩ := schedule_trace hc h segs hne q₁ q₂ hb₁ hb₂ hd
  have hfile : (segs.flatMap fun q => q.flatMap Pbuf.payload) = (d₁ ++ d₂).flatMap bytes ++ d₃.flatMap bytes := by
    rw [← bytes_dataEvents, ← hd, flatMap_append]
  have hmeans : OkMeans (segs.flatMap fun q => q.flatMap Pbuf.payload) s.trace
      ((schedule pc (b₁ :: q₁) (b₂ :: q₂) d₁ d₂ d₃).foldl (deliver c) s).trace ↔ d₃.flatMap bytes = [] := by
    rw [hfile]
    constructor
    · intro hok
      have := hok k u hsuf hu
      rw [hrec] at this
      exact self_eq_append_right.1 this
    · intro hnil k' u' hsuf' hu'
      rw [first_mark_unique hsuf' hsuf rfl rfl hu' hu, hrec, hnil, append_nil]
  rw [hmeans, flatMap_eq_nil_iff]
  constructor
  · exact fun hnil q hq hmem => hsegs q hq (hnil _ hmem)
  · intro hno e he
    have hmem : e ∈ dataEvents p segs := by rw [← hd]; simp [he]
    simp only [dataEvents, cons_append, mem_cons, mem_append, mem_map, not_mem_nil, or_false]
      at hmem
    rcases hmem with rfl | ⟨q, hq, rfl⟩ | rfl
    · rfl
    · exact absurd he (hno q hq)
    · rfl

lemma openRun_ready : ∃ s, run (step (idleCaller [])) (initial idleUser ()) (openRun (.retrieve (some 536))) = some s ∧
      Ready s ⟨0, 536⟩ ⟨1, 536⟩ := by
  have hw : ∀ s, run (step (idleCaller [])) (initial idleUser ()) (openRun (.retrieve (some 536))) = some s → Wf s :=
    fun s hs => (run_moves (idleCaller_lawful []) (wf_initial idleUser ()) hs).2
  refine ⟨_, rfl, hw _ rfl, rfl, .inl rfl, rfl, rfl, ?_, ?_⟩
  · exact Option.some_ne_none ()
  · exact Option.some_ne_none ()

theorem download_complete_one : ∃ s : Session Unit Unit, Ready s ⟨0, 536⟩ ⟨1, 536⟩ ∧
      OkMeans (ascii "abc") s.trace ((schedule ⟨0, 536⟩ [⟨ascii "150 ok", []⟩] [⟨ascii "226 ok", []⟩]
        [.dataConnected ⟨1, 536⟩ true] [.dataRecv ⟨1, 536⟩ [⟨ascii "abc", []⟩]] [.dataRecv ⟨1, 536⟩ []]).foldl
        (deliver (idleCaller [])) s).trace := by
  obtain ⟨s, -, h⟩ := openRun_ready
  refine ⟨s, h, ?_⟩
  exact (download_complete_iff (idleCaller_lawful []) h [[⟨ascii "abc", []⟩]] (by decide) ⟨ascii "150 ok", []⟩
    ⟨ascii "226 ok", []⟩ [] [] (by decide) (by decide) [.dataConnected ⟨1, 536⟩ true]
    [.dataRecv ⟨1, 536⟩ [⟨ascii "abc", []⟩]] [.dataRecv ⟨1, 536⟩ []] rfl).2 (by simp)

/-- The second of two segments comes after the 226: `OK` is reported for the first one alone. -/
theorem download_truncated : ∃ s, run (step (idleCaller [])) (initial idleUser ()) (openRun (.retrieve (some 536))) = some s ∧
      ¬ OkMeans (ascii "abcdef") s.trace ((schedule ⟨0, 536⟩ [⟨ascii "150 ok", []⟩] [⟨ascii "226 ok", []⟩]
        [.dataConnected ⟨1, 536⟩ true] [.dataRecv ⟨1, 536⟩ [⟨ascii "abc", []⟩]]
        [.dataRecv ⟨1, 536⟩ [⟨ascii "def", []⟩], .dataRecv ⟨1, 536⟩ []]).foldl (deliver (idleCaller [])) s).trace := by
  refine ⟨_, rfl, fun h => ?_⟩
  have := h () [.close ⟨1, 536⟩, .reply 226 .xfering, .sink (some (ascii "abc")), .reply 150 .retrSent] ⟨[], rfl⟩ (by decide)
  revert this
  decide

end LwftpCe.Lwftp
