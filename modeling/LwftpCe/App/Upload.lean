import LwftpCe.App.Ftp
import LwftpCe.Lwftp.Refine

/-!
# What an upload writes

`lwftp_data_sent` moves `app.txOffset` by what was acknowledged and then writes the next block from `app.txOffset` on.  So
the block starts behind the acknowledged bytes, and not behind the written ones: where an acknowledgement covers only a
part of what is in flight, the rest is written twice.
-/

namespace LwftpCe.App

open Lib Lwftp List Tcp Session Option

variable {V : Type} {mss r : ℕ} {a : AppT V} {k off : ℕ} {as : List ℕ}

/-! ### The source -/

@[simp] lemma appCaller_source (F : Fileioc V) (n : ℕ) : (appCaller F n).source .ftpStorDataSource = ftpStorDataSource := by
  cases n <;> rfl

lemma ftpStorDataSource_ack (h : a.txOffset + k < uintRange) (hk : a.txOffset + k ≤ a.txSize) :
    (ftpStorDataSource false k a).2 = { a with txOffset := a.txOffset + k } := by
  have hadd : uadd a.txOffset k = a.txOffset + k := Nat.mod_eq_of_lt h
  simp [ftpStorDataSource, hadd, Nat.not_lt.2 hk]

lemma ftpStorDataSource_next (h0 : 0 < mss) (h : a.txOffset ≤ a.txSize) :
    ftpStorDataSource true mss a = (a.fileBuffer.read a.txOffset (min (a.txSize - a.txOffset) mss), a) := by
  unfold ftpStorDataSource
  simp only [Bool.true_eq_false, if_true, Nat.not_lt.2 h, if_false, Nat.ne_of_gt h0, false_or]
  split_ifs with he
  · simp [he, Mem.read]
  · rfl

/-! ### The stream -/

def sent : List (Obs Ptr) → Bytes
  | .write d :: t => sent t ++ d
  | .reply 150 .storSent :: _ => []
  | _ :: t => sent t
  | [] => []

/-- Each acknowledgement is for the whole last block; `r` bytes are left when the first block is written. -/
def fullAcks (mss : ℕ) : ℕ → List ℕ → Bool
  | _, [] => true
  | r, k :: ks => k = min r mss ∧ fullAcks mss (r - k) ks

lemma fullAcks_left {bs : List ℕ} (h : fullAcks mss r (as ++ bs)) : fullAcks mss r as := by
  induction as generalizing r with
  | nil => rfl
  | cons k as ih =>
    simp only [cons_append, fullAcks, decide_eq_true_eq] at h ⊢
    exact ⟨h.1, ih h.2⟩

lemma fullAcks_sum (h : fullAcks mss r as) : as.sum ≤ r := by
  induction as generalizing r with
  | nil => exact Nat.zero_le r
  | cons k as ih =>
    simp only [fullAcks, decide_eq_true_eq] at h
    have := ih h.2
    rw [sum_cons]
    omega

lemma exists_part {acks : List ℕ} (h : fullAcks mss r acks = false) :
    ∃ as k bs, acks = as ++ k :: bs ∧ fullAcks mss r as ∧ k ≠ min (r - as.sum) mss := by
  induction acks generalizing r with
  | nil => cases h
  | cons k ks ih =>
    by_cases hk : k = min r mss
    · have h' : fullAcks mss (r - k) ks = false := by
        simpa [fullAcks, ← hk] using h
      obtain ⟨as, j, bs, rfl, hfull, hj⟩ := ih h'
      refine ⟨k :: as, j, bs, rfl, by simpa [fullAcks, ← hk] using hfull, ?_⟩
      rwa [sum_cons, Nat.sub_add_eq]
    · exact ⟨[], k, ks, rfl, rfl, by simpa using hk⟩

lemma read_part {m : Mem} {image : Bytes} (h : m.read 0 image.length = image) (off n : ℕ)
    (hn : off + n ≤ image.length) : m.read off n = (image.drop off).take n := by
  obtain ⟨r, hr⟩ := Nat.exists_eq_add_of_le hn
  have hs := h
  rw [hr, Nat.add_assoc, Mem.read_add, Mem.read_add, Nat.zero_add] at hs
  rw [← hs, drop_left' (by simp), take_left' (by simp)]

/-! ### An upload in progress -/

/-- The file `image` is being sent on `p`, registered as `l`: the first `off` bytes are acknowledged, and the block behind them is
in flight.  In the end the connection has been closed. -/
structure Sending (image : Bytes) (p : Pcb) (l : Option Link) (off : ℕ) (s : Prog V) : Prop where
  le : off ≤ image.length
  source : s.user.dataSource = some .ftpStorDataSource
  offset : s.usr.txOffset = off
  size : s.usr.txSize = image.length
  buffer : s.usr.fileBuffer.read 0 image.length = image
  sent : sent s.trace = image.take (off + min (image.length - off) p.mss)
  fault : s.fault = false
  isOpen : off < image.length → s.dataPcb = some p ∧ s.unacked = min (image.length - off) p.mss ∧ s.link p = l
  closed : off = image.length → s.dataPcb = none ∧ s.link p = none

section Sending

variable (F : Fileioc V) (n : ℕ) {image : Bytes} {p : Pcb} {l : Option Link} {s : Prog V} {off : ℕ} {k : ℕ}

lemma lwftpSendNextData_upload (hp : s.dataPcb = some p) (hs : s.user.dataSource = some .ftpStorDataSource)
    (h0 : 0 < p.mss) (h : s.usr.txOffset ≤ s.usr.txSize) :
    lwftpSendNextData (appCaller F n) s =
      writeData (s.usr.fileBuffer.read s.usr.txOffset (min (s.usr.txSize - s.usr.txOffset) p.mss))
        (s.note (.sendNextData (some p))) := by
  simp [lwftpSendNextData, nextData, note, hp, hs, ftpStorDataSource_next h0 h]

lemma sending_next (hp : s.dataPcb = some p) (hs : s.user.dataSource = some .ftpStorDataSource)
    (h₀ : 0 < p.mss) (hoff : s.usr.txOffset = off) (hsize : s.usr.txSize = image.length)
    (hbuf : s.usr.fileBuffer.read 0 image.length = image) (hle : off ≤ image.length)
    (hsent : sent s.trace = image.take off) (hun : s.unacked = 0) (hfault : s.fault = false) (hl : s.link p = l) :
    Sending image p l off (lwftpSendNextData (appCaller F n) s) := by
  rw [lwftpSendNextData_upload F n hp hs h₀ (by omega), hoff, hsize]
  have hpart := read_part hbuf off (min (image.length - off) p.mss) (by omega)
  have hlen : ((image.drop off).take (min (image.length - off) p.mss)).length = min (image.length - off) p.mss := by
    rw [length_take, length_drop]
    omega
  rw [hpart]
  unfold writeData
  split_ifs with hd
  · -- nothing is left
    have hend : off = image.length := by
      rw [hd, length_nil] at hlen
      omega
    have hdrop : dropData (s.note (.sendNextData (some p))) =
        { lwftpPcbClose p (s.note (.sendNextData (some p))) with dataPcb := none } := by
      simp [dropData, note, hp]
    rw [hdrop]
    refine ⟨hle, hs, hoff, hsize, hbuf, ?_, hfault, fun h => absurd hend (Nat.ne_of_lt h), fun _ => ⟨rfl, ?_⟩⟩
    · have h0 : off + min (image.length - off) p.mss = off := by omega
      rw [h0]
      exact hsent
    · simp [lwftpPcbClose, note, setLink]
  · refine ⟨hle, hs, hoff, hsize, hbuf, ?_, hfault, fun _ => ⟨hp, ?_, hl⟩, fun h => ?_⟩
    · rw [take_add, ← hsent]
      rfl
    · show s.unacked + _ = _
      rw [hun, hlen, Nat.zero_add]
    · exact absurd (by simp [h]) hd

lemma sending_begin (hst : s.controlState = .storSent) (hp : s.dataPcb = some p)
    (hs : s.user.dataSource = some .ftpStorDataSource) (h0 : 0 < p.mss) (hoff : s.usr.txOffset = 0)
    (hsize : s.usr.txSize = image.length) (hbuf : s.usr.fileBuffer.read 0 image.length = image) (hun : s.unacked = 0)
    (hfault : s.fault = false) {q : Pbuf} (hq : response q = 150) (qs : List Pbuf) (pc : Pcb) :
    Sending image p (s.link p) 0 (handle (appCaller F n) s (.controlRecv pc (q :: qs) true)) := by
  have hack : (ftpStorDataSource false 0 s.usr).2 = s.usr := by
    rw [ftpStorDataSource_ack (by rw [hoff]; decide) (by omega)]
    rfl
  have he : handle (appCaller F n) s (.controlRecv pc (q :: qs) true) =
      lwftpSendNextData (appCaller F n) ((readReply 150 s).goto .xfering) := by
    simp only [handle, lwftpControlRecv, if_true, reduceCtorEq, if_false]
    rw [process_pos (by rw [hq]; decide), hq]
    simp only [onReply, readReply, note, hst, if_true]
    rw [controlEnd_stable]
    · simp [lwftpDataSent, goto, hs, hack]
    · obtain ⟨usr, hd⟩ := lwftpDataSent_eq 0 ((readReply 150 s).goto .xfering)
      simp only [readReply, note, hst] at hd
      rw [hd, lwftpSendNextData_controlState]
      rfl
  rw [he]
  exact sending_next F n hp hs h0 hoff hsize hbuf (Nat.zero_le _) (by simp [readReply, hst]; rfl) hun hfault
    rfl

def acked (k off : ℕ) (s : Prog V) : Prog V :=
  { s with unacked := s.unacked - k, usr := { s.usr with txOffset := off } }

lemma handle_ack (h : Sending image p l off s) (hlt : off < image.length) (hr : image.length < uintRange)
    (hk : k ≤ min (image.length - off) p.mss) :
    handle (appCaller F n) s (.dataSent p k) =
      lwftpSendNextData (appCaller F n) (acked k (off + k) s) := by
  have hack := ftpStorDataSource_ack (k := k) (by rw [h.offset]; omega) (by rw [h.offset, h.size]; omega)
  simp [handle, lwftpDataSent, acked, h.source, hack, h.offset]

lemma sending_ack (h : Sending image p l off s) (h0 : 0 < p.mss) (hlt : off < image.length) (hr : image.length < uintRange) :
    Sending image p l (off + min (image.length - off) p.mss)
      (handle (appCaller F n) s (.dataSent p (min (image.length - off) p.mss))) := by
  rw [handle_ack F n h hlt hr le_rfl]
  refine sending_next F n (h.isOpen hlt).1 h.source h0 rfl h.size h.buffer (by omega) h.sent ?_ h.fault
    (h.isOpen hlt).2.2
  show s.unacked - _ = 0
  rw [(h.isOpen hlt).2.1, Nat.sub_self]

lemma sent_part (h : Sending image p l off s) (h0 : 0 < p.mss) (hr : image.length < uintRange)
    (hk : k < min (image.length - off) p.mss) :
    sent (handle (appCaller F n) s (.dataSent p k)).trace =
      image.take (off + min (image.length - off) p.mss) ++
        (image.drop (off + k)).take (min (image.length - (off + k)) p.mss) := by
  have hlt : off < image.length := by omega
  have hp : (acked k (off + k) s).dataPcb = some p := (h.isOpen hlt).1
  have hs : (acked k (off + k) s).user.dataSource = some .ftpStorDataSource := h.source
  have hsize : (acked k (off + k) s).usr.txSize = image.length := h.size
  have hoff : (acked k (off + k) s).usr.txOffset = off + k := rfl
  have hbuf : (acked k (off + k) s).usr.fileBuffer.read 0 image.length = image := h.buffer
  rw [handle_ack F n h hlt hr hk.le, lwftpSendNextData_upload F n hp hs h0 (by omega), hoff, hsize,
    read_part hbuf (off + k) _ (by omega)]
  unfold writeData
  rw [if_neg]
  · show sent s.trace ++ _ = _
    rw [h.sent]
  · intro hd
    have := congrArg List.length hd
    rw [length_take, length_drop, length_nil] at this
    omega

end Sending

/-! ### A whole upload -/

def starting (image : Bytes) (s : Prog V) : Prog V :=
  onApp (fun a => { a with fileBuffer := a.fileBuffer.write 0 image, txSize := image.length, txOffset := 0 }) s

/-- STOR has been sent, with the data connection on `p`. -/
structure Starts (p : Pcb) (s : Prog V) : Prop where
  state : s.controlState = .storSent
  pcb : s.dataPcb = some p
  source : s.user.dataSource = some .ftpStorDataSource
  unacked : s.unacked = 0
  mss : 0 < p.mss

def uploadEvents (pc : Pcb) (reply : List Pbuf) (p : Pcb) (acks : List ℕ) : List (Lwftp.Event Ptr (AppT V)) :=
  .tcp (.controlRecv pc reply true) :: acks.map fun k => .tcp (.dataSent p k)

lemma uploadEvents_append (pc : Pcb) (reply : List Pbuf) (p : Pcb) (as bs : List ℕ) : uploadEvents (V := V) pc reply p (as ++ bs) =
      uploadEvents pc reply p as ++ bs.map fun k => .tcp (.dataSent p k) := by
  simp [uploadEvents]

section Upload

variable (F : Fileioc V) (n : ℕ) {p pc : Pcb} {q : Pbuf} {qs : List Pbuf} {s : Prog V} (hs : Starts p s)
  (hq : response q = 150) {image : Bytes} (hr : image.length < uintRange) {as : List ℕ} {off : ℕ} {m s' : Prog V}

include hr hs in
lemma sending_acks {l : Option Link} (h : Sending image p l off m) (hf : fullAcks p.mss (image.length - off) as)
    (hrun : run (step (appCaller F n)) m (as.map fun k => .tcp (.dataSent p k)) = some s') :
    Sending image p l (off + as.sum) s' := by
  induction as generalizing off m with
  | nil =>
    cases hrun
    exact h
  | cons k as ih =>
    obtain ⟨m', hm', hrun⟩ := run_cons_some.1 hrun
    obtain ⟨⟨-, he⟩, hm'⟩ := ite_none_right_eq_some.1 hm'
    cases hm'
    simp only [fullAcks, decide_eq_true_eq] at hf
    simp only [enabled, decide_eq_true_eq] at he
    obtain ⟨rfl, hf⟩ := hf
    have hlt : off < image.length := by omega
    have := ih (sending_ack F n h hs.mss hlt hr) (by rwa [Nat.sub_add_eq]) hrun
    rwa [Nat.add_assoc, ← sum_cons] at this

include hs hq hr in
lemma full_sending (hf : fullAcks p.mss image.length as)
    (hrun : run (step (appCaller F n)) (starting image s) (uploadEvents pc (q :: qs) p as) = some s') :
    Sending image p (s.link p) as.sum s' := by
  obtain ⟨m, hm, hrun⟩ := run_cons_some.1 hrun
  obtain ⟨⟨hfault, -⟩, hm⟩ := ite_none_right_eq_some.1 hm
  cases hm
  have hbegin : Sending image p (s.link p) 0
      (handle (appCaller F n) (starting image s) (.controlRecv pc (q :: qs) true)) :=
    sending_begin F n (s := starting image s) hs.state hs.pcb hs.source hs.mss rfl rfl
      (Mem.read_write s.usr.fileBuffer 0 image) hs.unacked hfault hq qs pc
  have := sending_acks F n hs hr hbegin hf hrun
  rwa [Nat.zero_add] at this

include hr hs in
lemma run_acks (h : Sending image p (some ⟨.data, true⟩) off m)
    (hf : fullAcks p.mss (image.length - off) as) (hpos : ∀ k ∈ as, 0 < k) :
    (run (step (appCaller F n)) m (as.map fun k => .tcp (.dataSent p k))).isSome := by
  induction as generalizing off m with
  | nil => rfl
  | cons k as ih =>
    simp only [fullAcks, decide_eq_true_eq] at hf
    obtain ⟨rfl, hf⟩ := hf
    have hk := hpos _ mem_cons_self
    have hlt : off < image.length := by omega
    obtain ⟨-, hun, hl⟩ := h.isOpen hlt
    have hstep : step (appCaller F n) m (.tcp (.dataSent p (min (image.length - off) p.mss))) =
        some (handle (appCaller F n) m (.dataSent p (min (image.length - off) p.mss))) :=
      if_pos ⟨h.fault, by simp only [enabled, hl, hun]; simpa using hk⟩
    rw [map_cons, run, hstep, bind_some]
    exact ih (sending_ack F n h hs.mss hlt hr) (by rwa [Nat.sub_add_eq]) fun j hj => hpos j (mem_cons_of_mem _ hj)

include hs hq hr in
lemma full_run (hfault : s.fault = false) (hc : s.link pc = some ⟨.control, true⟩) (hp : s.link p = some ⟨.data, true⟩) (hf : fullAcks p.mss image.length as) (hpos : ∀ k ∈ as, 0 < k) :
    (run (step (appCaller F n)) (starting image s) (uploadEvents pc (q :: qs) p as)).isSome := by
  have hstep : step (appCaller F n) (starting image s) (.tcp (.controlRecv pc (q :: qs) true)) =
      some (handle (appCaller F n) (starting image s) (.controlRecv pc (q :: qs) true)) :=
    if_pos ⟨hfault, decide_eq_true hc⟩
  have hbegin := sending_begin F n (s := starting image s) hs.state hs.pcb hs.source hs.mss rfl rfl
    (Mem.read_write s.usr.fileBuffer 0 image) hs.unacked hfault hq qs pc
  rw [show (starting image s).link p = some ⟨.data, true⟩ from hp] at hbegin
  rw [uploadEvents, run, hstep, bind_some]
  exact run_acks F n hs hr hbegin hf hpos

end Upload

def stepFile (a b : ℕ) : Bytes := List.replicate a 0 ++ List.replicate b 1

lemma stepFile_repeat {a b n : ℕ} (h : off < a) (hn : 0 < n) :
    ¬ (stepFile a b).take a ++ ((stepFile a b).drop off).take n <+: stepFile a b := by
  have htake : (stepFile a b).take a = replicate a 0 := take_left' (by simp)
  have hmem : (0 : UInt8) ∈ ((stepFile a b).drop off).take n := by
    obtain ⟨d, hd⟩ : ∃ d, a - off = d + 1 := ⟨a - off - 1, by omega⟩
    obtain ⟨k, rfl⟩ : ∃ k, n = k + 1 := ⟨n - 1, by omega⟩
    have hdrop : (stepFile a b).drop off = replicate (a - off) 0 ++ replicate b 1 := by
      rw [stepFile, drop_append_of_le_length (by simp; omega), drop_replicate]
    rw [hdrop, hd, replicate_succ, cons_append]
    exact mem_cons_self
  rw [htake]
  intro hp
  have hp' := (prefix_append_right_inj (replicate a (0 : UInt8))).1 hp
  have := eq_of_mem_replicate (hp'.subset hmem)
  exact absurd this (by decide)

lemma partial_breaks (F : Fileioc V) (n : ℕ) {p : Pcb} {l : Option Link} {m : Prog V} {size : ℕ}
    (h0 : 0 < p.mss) (hr : size < uintRange)
    (h : Sending (stepFile (off + min (size - off) p.mss) (size - (off + min (size - off) p.mss))) p l off m)
    (hoff : off ≤ size) (he : (dataSent p k).enabled m) (hk : k ≠ min (size - off) p.mss) :
    ¬ sent (handle (appCaller F n) m (.dataSent p k)).trace <+:
      stepFile (off + min (size - off) p.mss) (size - (off + min (size - off) p.mss)) := by
  generalize ha : off + min (size - off) p.mss = a at h
  have hlen : (stepFile a (size - a)).length = size := by
    simp only [stepFile, length_append, length_replicate]
    omega
  simp only [enabled, decide_eq_true_eq] at he
  have hlt : off < (stepFile a (size - a)).length := by
    by_contra hge
    have hl := (h.closed (by omega)).2
    rw [hl] at he
    cases he.1
  have hun := (h.isOpen hlt).2.1
  rw [sent_part F n h h0 (by rwa [hlen]) (by omega), hlen, ha]
  exact stepFile_repeat (by omega) (by omega)

/-- **An upload is written once and in order exactly under acknowledgements of whole blocks.**  The server has accepted STOR, the
file has `size` bytes, and the stack can deliver `acks`.  Then every acknowledgement is for the whole block written last exactly
if, for every file of that size, what has been written is a prefix of the file at all times and the whole file in the end. -/
theorem upload_exact_iff (F : Fileioc V) (n : ℕ) (p pc : Pcb) (q : Pbuf) (qs : List Pbuf) (s : Prog V) (hs : Starts p s)
    (hq : response q = 150) (size : ℕ) (hr : size < uintRange) (acks : List ℕ)
    (hrun : ∀ image : Bytes, image.length = size →
      (run (step (appCaller F n)) (starting image s) (uploadEvents pc (q :: qs) p acks)).isSome) :
    (∀ image : Bytes, image.length = size → ∀ as, as <+: acks → ∀ s',
      run (step (appCaller F n)) (starting image s) (uploadEvents pc (q :: qs) p as) = some s' →
      sent s'.trace <+: image ∧ (s'.dataPcb = none → sent s'.trace = image)) ↔
    fullAcks p.mss size acks := by
  constructor
  · intro h
    by_contra hf
    obtain ⟨as, k, bs, rfl, hfull, hk⟩ := exists_part (Bool.eq_false_iff.2 hf)
    have hsum := fullAcks_sum hfull
    -- the bytes up to the end of the block in flight are zeros, all others ones
    obtain ⟨image, himage⟩ : ∃ image, image = stepFile (as.sum + min (size - as.sum) p.mss)
      (size - (as.sum + min (size - as.sum) p.mss)) := ⟨_, rfl⟩
    have hlen : image.length = size := by
      rw [himage]
      simp only [stepFile, length_append, length_replicate]
      omega
    obtain ⟨s', hs'⟩ := isSome_iff_exists.1 (hrun image hlen)
    rw [show as ++ k :: bs = (as ++ [k]) ++ bs by simp, uploadEvents_append] at hs'
    obtain ⟨m', hm', -⟩ := run_append.1 hs'
    have hpre := (h image hlen (as ++ [k]) ⟨bs, by simp⟩ m' hm').1
    rw [uploadEvents_append] at hm'
    obtain ⟨m, hm, hstep⟩ := run_append.1 hm'
    obtain ⟨m'', hstep, hnil⟩ := run_cons_some.1 hstep
    cases hnil
    obtain ⟨⟨-, he⟩, hstep⟩ := ite_none_right_eq_some.1 hstep
    cases hstep
    have hsend := full_sending F n hs hq (by rwa [hlen]) (by rwa [hlen]) hm
    rw [himage] at hsend hpre
    exact partial_breaks F n hs.mss hr hsend hsum he hk hpre
  · rintro hf image rfl as ⟨bs, rfl⟩ s' hs'
    have h := full_sending F n hs hq hr (fullAcks_left hf) hs'
    have hle := h.le
    rw [h.sent]
    constructor
    · exact take_prefix _ _
    · intro hd
      have hend : as.sum = image.length := by
        by_contra hne
        rw [(h.isOpen (by omega)).1] at hd
        cases hd
      rw [hend]
      simp

def storing : Prog Unit where
  user := { user := some .user, pass := some .pass, remotePath := some .appPath, dataSource := some .ftpStorDataSource,
            doneFn := some .ftpStorCallback }
  controlState := .storSent
  targetState := .storSent
  controlPcb := some ⟨0, 536⟩
  dataPcb := some ⟨1, 2⟩
  link p := if p = ⟨0, 536⟩ then some ⟨.control, true⟩ else if p = ⟨1, 2⟩ then some ⟨.data, true⟩ else none
  nextPcb := 2
  usr := { vars := () }

theorem upload_exact_three : ∃ s', run (step (appCaller noVars 1)) (starting [1, 2, 3] storing)
        (uploadEvents ⟨0, 536⟩ [⟨ascii "150 go\r\n", []⟩] ⟨1, 2⟩ [2, 1]) = some s' ∧
      s'.dataPcb = none ∧ sent s'.trace = [1, 2, 3] :=
  ⟨_, rfl, rfl,
    ((upload_exact_iff noVars 1 ⟨1, 2⟩ ⟨0, 536⟩ ⟨ascii "150 go\r\n", []⟩ [] storing ⟨rfl, rfl, rfl, rfl, by decide⟩
      (by decide) 3 (by decide) [2, 1] (fun image h =>
        full_run noVars 1 ⟨rfl, rfl, rfl, rfl, by decide⟩ (by decide) (by rw [h]; decide) rfl rfl rfl (by rw [h]; decide)
          (by decide))).2 (by decide) [1, 2, 3] rfl [2, 1] (prefix_refl _) _ rfl).2 rfl⟩

/-- **An acknowledgement of one byte of two**: the second byte is written twice. -/
theorem upload_repeats : ∃ s', run (step (appCaller noVars 1)) (starting [1, 2, 3] storing)
        (uploadEvents ⟨0, 536⟩ [⟨ascii "150 go\r\n", []⟩] ⟨1, 2⟩ [1]) = some s' ∧
      sent s'.trace = [1, 2, 2, 3] ∧ ¬ sent s'.trace <+: [1, 2, 3] :=
  ⟨_, rfl, rfl, by decide⟩

end LwftpCe.App
