import LwftpCe.Lwftp.Download

/-!
# How the control stream is cut into segments

`lwftp_control_process` reads one number at the head of each segment and keeps nothing from one segment to the next: there
are no lines and there is no buffer.  So the session depends on how the stream is cut (`segmentation_matters`: 150 and 226
in one segment, or in two).

A *script* is what the server sends and what happens meanwhile: replies, the parts of a reply behind an event, and events.
`Delivers` describes the ways of cutting it that the session can follow: a reply begins a segment; this segment holds the
code and a byte behind it, with 227 the address and with 257 the whole reply; and what is left of the reply comes in
segments that do not begin with a number.
-/

namespace LwftpCe.Lwftp

open Lib List

variable {K U : Type} {c : Caller K U} {s : Session K U} {pc : Pcb} {t r : Bytes} {q : Pbuf}
  {m : Bytes} {q' : Pbuf} {x : Pbuf × List Pbuf}

/-! ### Reading at the head of a segment -/

lemma strtoul_tail_append {p : Bytes} (hp : unread p.tail ≠ []) (a : Bytes) :
    strtoul (p ++ a).tail = ((strtoul p.tail).1, (strtoul p.tail).2 ++ a) := by
  have hne : p ≠ [] := by
    rintro rfl
    exact hp rfl
  rw [tail_append_of_ne_nil hne, strtoul_append hp]

lemma pasvAddress_append {ptr : Bytes} {x : Ip × ℕ} (h : pasvAddress ptr = some x) (a : Bytes) : pasvAddress (ptr ++ a) = some x := by
  have key : ∀ {m : Bytes}, unread (strtoul m).2.tail ≠ [] → unread m ≠ [] := fun h h' => h (unread_tail h')
  unfold pasvAddress at h ⊢
  simp only at h ⊢
  split at h
  · next hend =>
    -- the last number ends at the parenthesis, so each of the six readings ended inside
    have h6 := fun h' => head_of_unread h' hend
    have h5 := key h6
    have h4 := key h5
    have h3 := key h4
    have h2 := key h3
    have h1 := key h2
    simp only [strtoul_tail_append h1, strtoul_tail_append h2, strtoul_tail_append h3, strtoul_tail_append h4,
      strtoul_tail_append h5, strtoul_tail_append h6]
    rw [if_pos]
    · exact h
    · rw [List.head?_append, hend]
      rfl
  · cases h

lemma strchr_append {x : UInt8} (h : strchr x m = some t) (a : Bytes) : strchr x (m ++ a) = some (t ++ a) := by
  induction m with
  | nil => cases h
  | cons y m ih =>
    simp only [strchr, cons_append] at h ⊢
    split at h
    · next hy =>
      cases h
      simp [hy]
    · split at h
      · cases h
      · next h1 h2 => simp [h1, h2, ih h]

def address (m : Bytes) : Option (Ip × ℕ) := (strchr 40 m).bind pasvAddress

lemma address_append {x : Ip × ℕ} (h : address m = some x) (a : Bytes) : address (m ++ a) = some x := by
  obtain ⟨t, ht, hx⟩ := Option.bind_eq_some_iff.1 h
  exact Option.bind_eq_some_iff.2 ⟨t ++ a, strchr_append ht a, pasvAddress_append hx a⟩

/-! ### Scripts and their deliveries -/

/-- What happens on the control connection, and between its bytes. -/
inductive Act where
  /-- the bytes of a reply, up to its end or to the next event -/
  | reply (r : Bytes)
  /-- bytes of a reply behind an event -/
  | more (t : Bytes)
  /-- another report of the stack -/
  | event (e : Tcp)

/-- The beginning `h` of the reply `r` holds what the session needs: the code with a byte behind it, the address of a 227
and all of a 257. -/
structure Heads (r h : Bytes) : Prop where
  code : unread h ≠ []
  pasv : (strtoul r).1 % 65536 = 227 → (address h).isSome
  whole : (strtoul r).1 % 65536 = 257 → h = r

def silent (t : Bytes) : Prop := unread t ≠ [] ∧ (strtoul t).1 % 65536 = 0

def segmentBytes (x : Pbuf × List Pbuf) : Bytes := x.1.payload ++ x.2.flatMap Pbuf.payload

def arrives (pc : Pcb) (x : Pbuf × List Pbuf) : Tcp := .controlRecv pc (x.1 :: x.2) true

/-- A way of cutting a script into segments and events. -/
inductive Delivers (pc : Pcb) : List Act → List Tcp → Prop
  | nil : Delivers pc [] []
  | event {e : Tcp} {as : List Act} {es : List Tcp} (h : Delivers pc as es) : Delivers pc (.event e :: as) (e :: es)
  | reply {r : Bytes} {x : Pbuf × List Pbuf} {xs : List (Pbuf × List Pbuf)} {as : List Act} {es : List Tcp}
      (hr : segmentBytes x ++ xs.flatMap segmentBytes = r) (hx : Heads r x.1.payload) (hxs : ∀ y ∈ xs, silent y.1.payload)
      (h : Delivers pc as es) : Delivers pc (.reply r :: as) (arrives pc x :: xs.map (arrives pc) ++ es)
  | more {t : Bytes} {xs : List (Pbuf × List Pbuf)} {as : List Act} {es : List Tcp}
      (ht : xs.flatMap segmentBytes = t) (hxs : ∀ y ∈ xs, silent y.1.payload) (h : Delivers pc as es) :
      Delivers pc (.more t :: as) (xs.map (arrives pc) ++ es)

lemma response_eq (h : unread q.payload ≠ []) : response q = (strtoul q.payload).1 % 65536 := by
  unfold response Pbuf.mem
  rw [strtoul_append h]

lemma Heads.response (h : Heads r q.payload) (hr : q.payload ++ t = r) : response q = (strtoul r).1 % 65536 := by
  rw [response_eq h.code, ← hr, strtoul_append h.code]

lemma Heads.address (h : Heads r q.payload) (hr : q.payload ++ t = r)
    (hn : (strtoul r).1 % 65536 = 227) : address q.mem = address r := by
  obtain ⟨x, hx⟩ := Option.isSome_iff_exists.1 (h.pasv hn)
  rw [← hr, address_append hx t]
  exact address_append hx q.after

lemma lwftpDataOpen_congr (h : address q.mem = address q'.mem) (s : Session K U) : lwftpDataOpen q s = lwftpDataOpen q' s := by
  unfold address at h
  unfold lwftpDataOpen
  rw [h]

lemma onReply_congr {n : ℕ} (h1 : n = 227 → address q.mem = address q'.mem)
    (h2 : n = 257 → q.payload = q'.payload) (s : Session K U) : onReply c q n s = onReply c q' n s := by
  unfold onReply
  cases s.controlState with
  | pasvSent =>
    simp only [onPasv]
    split
    · next hn => rw [lwftpDataOpen_congr (h1 hn)]
    · rfl
  | pwdSent =>
    simp only [onPwd]
    split
    · next hn => rw [h2 hn]
    · rfl
  | _ => rfl

lemma deliver_head {x' : Pbuf × List Pbuf} {t' : Bytes} (h : Heads r x.1.payload)
    (h' : Heads r x'.1.payload) (hr : segmentBytes x ++ t = r) (hr' : segmentBytes x' ++ t' = r) (s : Session K U) :
    deliver c s (arrives pc x) = deliver c s (arrives pc x') := by
  rw [segmentBytes, append_assoc] at hr hr'
  have hq := h.response hr
  have hq' := h'.response hr'
  have hp : lwftpControlProcess c (x.1 :: x.2) s = lwftpControlProcess c (x'.1 :: x'.2) s := by
    unfold lwftpControlProcess
    simp only [hq, hq']
    rw [onReply_congr (fun hn => (h.address hr hn).trans (h'.address hr' hn).symm)
      (fun hn => (h.whole hn).trans (h'.whole hn).symm)]
  simp only [deliver, step, arrives, Tcp.enabled, Tcp.handle, lwftpControlRecv, if_true, cons_ne_nil, if_false, hp]

lemma deliver_silent (hw : Wf s) (hx : silent x.1.payload) : deliver c s (arrives pc x) = s := by
  have hz : response x.1 = 0 := (response_eq hx.1).trans hx.2
  simp only [deliver, step, arrives, Tcp.handle, lwftpControlRecv, if_true, cons_ne_nil, if_false,
    process_zero hw hz]
  split <;> rfl

lemma deliver_all_silent (hw : Wf s) {xs : List (Pbuf × List Pbuf)} (hxs : ∀ y ∈ xs, silent y.1.payload) :
    (xs.map (arrives pc)).foldl (deliver c) s = s := by
  induction xs with
  | nil => rfl
  | cons x xs ih =>
    rw [map_cons, foldl_cons, deliver_silent hw (hxs x (by simp))]
    exact ih fun y hy => hxs y (by simp [hy])

lemma Delivers.same (hc : Lawful c) {as : List Act} {es es' : List Tcp} (h : Delivers pc as es)
    (h' : Delivers pc as es') (hw : Wf s) : es.foldl (deliver c) s = es'.foldl (deliver c) s := by
  induction h generalizing s es' with
  | nil =>
    cases h'
    rfl
  | event _ ih =>
    cases h' with
    | event h' => exact ih h' (Moves.wf (deliver_moves hc hw _) hw)
  | reply hr hx hxs _ ih =>
    cases h' with
    | reply hr' hx' hxs' h' =>
      have hw' := fun e => Moves.wf (deliver_moves hc hw e) hw
      simp only [cons_append, foldl_cons, foldl_append]
      rw [deliver_all_silent (hw' _) hxs, deliver_all_silent (hw' _) hxs', deliver_head hx hx' hr hr']
      exact ih h' (hw' _)
  | more _ hxs _ ih =>
    cases h' with
    | more _ hxs' h' =>
      rw [foldl_append, foldl_append, deliver_all_silent hw hxs, deliver_all_silent hw hxs']
      exact ih h' hw

/-- **The cut does not matter, if the session can follow it.**  From every reachable session, two deliveries of one script
lead to the same session: the same state of the control connection, the same commands sent in the same order, the same calls
of `done_fn`. -/
theorem segmentation_independent (hc : Lawful c) (user : User K) (usr : U) (es₀ : List (Event K U)) (s : Session K U)
    (hs : run (step c) (initial user usr) es₀ = some s) (pc : Pcb) (as : List Act) (es es' : List Tcp)
    (h : Delivers pc as es) (h' : Delivers pc as es') : es.foldl (deliver c) s = es'.foldl (deliver c) s :=
  h.same hc h' (run_moves hc (wf_initial user usr) hs).2

theorem segmentation_independent_begin :
    ∃ s, run (step (idleCaller [])) (initial idleUser ()) (openRun (.retrieve (some 536))) = some s ∧
      [arrives ⟨0, 536⟩ (⟨ascii "150 opening data connection\r\n", []⟩, [])].foldl (deliver (idleCaller [])) s =
        [arrives ⟨0, 536⟩ (⟨ascii "150 opening", []⟩, []), arrives ⟨0, 536⟩ (⟨ascii " data connection\r\n", []⟩, [])].foldl
          (deliver (idleCaller [])) s := by
  refine ⟨_, rfl, ?_⟩
  refine segmentation_independent (idleCaller_lawful []) idleUser () (openRun (.retrieve (some 536))) _ rfl ⟨0, 536⟩
    [.reply (ascii "150 opening data connection\r\n")] _ _ ?_ ?_
  · have hnone : ∀ y ∈ ([] : List (Pbuf × List Pbuf)), silent y.1.payload := by simp
    exact .reply (x := (⟨ascii "150 opening data connection\r\n", []⟩, [])) rfl ⟨by decide, by decide, by decide⟩ hnone .nil
  · have hrest : ∀ y ∈ [((⟨ascii " data connection\r\n", []⟩, []) : Pbuf × List Pbuf)], silent y.1.payload := by
      simp only [mem_singleton, forall_eq, silent]
      decide
    exact .reply (x := (⟨ascii "150 opening", []⟩, [])) rfl ⟨by decide, by decide, by decide⟩ hrest .nil

/-- The two replies of a download in one segment, and in two. -/
theorem segmentation_matters : ∃ s, run (step (idleCaller [])) (initial idleUser ()) (openRun (.retrieve (some 536))) = some s ∧
      ([arrives ⟨0, 536⟩ (⟨ascii "150 opening\r\n226 done\r\n", []⟩, [])].foldl (deliver (idleCaller [])) s).controlState ≠
        ([arrives ⟨0, 536⟩ (⟨ascii "150 opening\r\n", []⟩, []), arrives ⟨0, 536⟩ (⟨ascii "226 done\r\n", []⟩, [])].foldl
          (deliver (idleCaller [])) s).controlState ∧
      ascii "150 opening\r\n226 done\r\n" = ascii "150 opening\r\n" ++ ascii "226 done\r\n" :=
  ⟨_, rfl, by decide, rfl⟩

end LwftpCe.Lwftp
