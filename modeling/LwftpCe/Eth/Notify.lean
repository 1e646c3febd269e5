import LwftpCe.Eth.Reach

/-!
# Notifications in an interrupt transfer

`interrupt_receive_callback` lays a header of eight bytes over the buffer at a cursor, and moves on by its `wLength`.  It
looks only at the cursor to see whether the transfer has ended: not at whether the header, or what it announces, lies inside.
-/

namespace LwftpCe.Eth

open Lib List EthDevice

variable {m : Mem} {data bs : Bytes} {n pos fuel d : ℕ} {w : Driver} {dev : EthDevice}

/-! ### Reads -/

/-- The bytes that a turn of the loop reads: `bmRequestType`, `bRequest` and `wValue` as far as they are looked at, and
`wLength`. -/
def headerReads (ibuf : Mem) (pos : ℕ) : List ℕ :=
  [pos] ++ (if ibuf pos = 0xA1 then [pos + 1] ++ if ibuf (pos + 1) = 0 then [pos + 2, pos + 3] else [] else []) ++ [pos + 6, pos + 7]

def reportReads (ibuf : Mem) (transferred : ℕ) : ℕ → ℕ → List ℕ
  | 0, _ => []
  | fuel + 1, pos =>
    let next := pos + (8 + ibuf.word (pos + 6))
    headerReads ibuf pos ++ if next < transferred then reportReads ibuf transferred fuel next else []

/-! ### What a transfer says -/

/-- `wLength` of the notification at the head of `bs`, and the link that it reports, if it is `NETWORK_CONNECTION`. -/
def wLength (bs : Bytes) : ℕ := (Mem.ofBytes bs).word 6
def linkOf (bs : Bytes) : Option Bool :=
  if bs.getD 0 0 = 0xA1 ∧ bs.getD 1 0 = 0 then some (decide ((Mem.ofBytes bs).word 2 ≠ 0)) else none

def notifications : ℕ → Bytes → List Bytes
  | 0, _ => []
  | fuel + 1, bs =>
    if 8 + wLength bs ≤ bs.length then bs.take (8 + wLength bs) :: notifications fuel (bs.drop (8 + wLength bs)) else []

def linksIn (data : Bytes) : List Bool := (notifications data.length data).flatMap fun bs => (linkOf bs).toList

/-- A transfer of whole notifications.  The last one may announce more than there is, if it is not `NETWORK_CONNECTION`. -/
def Whole : ℕ → Bytes → Bool
  | 0, bs => bs = []
  | fuel + 1, bs =>
    bs = [] ∨ 8 ≤ bs.length ∧
      if 8 + wLength bs ≤ bs.length then Whole fuel (bs.drop (8 + wLength bs)) else linkOf bs = none

/-- The callback does with a transfer what it is for. -/
structure Notified (d : ℕ) (w : Driver) (dev : EthDevice) (data : Bytes) : Prop where
  inside : ∀ a ∈ reportReads (dev.completeInt data).intBuf data.length data.length 0, a < data.length
  /-- more turns would change nothing -/
  ends : ∀ k, connectionReports (dev.completeInt data).intBuf data.length (data.length + k) 0 = reportsIn data.length (dev.completeInt data)
  applied : reportsIn data.length (dev.completeInt data) = linksIn data
  link : ((interruptReceiveCallback d true data w).data d).map EthDevice.linkUp = some ((linksIn data).getLast?.getD dev.linkUp)

/-! ### The loop -/

lemma whole_nil (fuel : ℕ) : Whole fuel [] = true := by cases fuel <;> rfl

lemma notifications_nil (fuel : ℕ) : notifications fuel [] = [] := by
  cases fuel with
  | zero => rfl
  | succ fuel => exact if_neg (by simp)

lemma linkOf_take (h : 8 ≤ n) : linkOf (bs.take n) = linkOf bs := by
  have hbyte : ∀ i < 8, (bs.take n).getD i 0 = bs.getD i 0 := by
    intro i hi
    rw [getD_eq_getElem?_getD, getElem?_take_of_lt (by omega), ← getD_eq_getElem?_getD]
  unfold linkOf Mem.word Mem.ofBytes
  rw [hbyte 0 (by decide), hbyte 1 (by decide), hbyte 2 (by decide), hbyte (2 + 1) (by decide)]

lemma connectionReports_more (hfuel : n - pos ≤ fuel) (hpos : pos < n) (k : ℕ) :
    connectionReports m n (fuel + k) pos = connectionReports m n fuel pos := by
  induction fuel generalizing pos with
  | zero => omega
  | succ fuel ih =>
    rw [Nat.succ_add, connectionReports, connectionReports]
    by_cases hnext : pos + (8 + m.word (pos + 6)) < n
    · rw [ih (by omega) hnext]
    · simp only [if_neg hnext]

lemma loop_iff_whole (fuel : ℕ) (hm : ∀ i < data.length, m i = data.getD i 0) (hpos : pos < data.length)
    (hfuel : data.length - pos ≤ fuel) :
    (∀ a ∈ reportReads m data.length fuel pos, a < data.length) ∧
      connectionReports m data.length fuel pos = (notifications fuel (data.drop pos)).flatMap (fun bs => (linkOf bs).toList) ↔
    Whole fuel (data.drop pos) = true := by
  induction fuel generalizing pos with
  | zero => omega
  | succ fuel ih =>
    have hlen : (data.drop pos).length = data.length - pos := length_drop
    have hne : data.drop pos ≠ [] := fun h => by
      rw [h] at hlen
      exact absurd hlen (by simp; omega)
    rw [reportReads, connectionReports, notifications, Whole]
    simp only [hne, false_or, decide_eq_true_eq, hlen]
    by_cases hheader : pos + 8 ≤ data.length
    · -- the header is inside
      have hbyte : ∀ i < 8, m (pos + i) = (data.drop pos).getD i 0 := by
        intro i hi
        rw [hm _ (by omega), getD_eq_getElem?_getD, getD_eq_getElem?_getD, getElem?_drop]
      have h0 : m pos = (data.drop pos).getD 0 0 := hbyte 0 (by decide)
      have hword : m.word (pos + 6) = wLength (data.drop pos) := by
        simp only [Mem.word, wLength, Mem.ofBytes, Nat.add_assoc, hbyte 6 (by decide), hbyte 7 (by decide)]
      have hvalue : m.word (pos + 2) = (Mem.ofBytes (data.drop pos)).word 2 := by
        simp only [Mem.word, Mem.ofBytes, Nat.add_assoc, hbyte 2 (by decide), hbyte 3 (by decide)]
      have hhere : (if m pos = 0xA1 ∧ m (pos + 1) = 0 then [decide (m.word (pos + 2) ≠ 0)] else []) =
          (linkOf (data.drop pos)).toList := by
        rw [h0, hbyte 1 (by decide), hvalue, linkOf]
        split_ifs <;> rfl
      have hreads : ∀ a ∈ headerReads m pos, a < data.length := by
        intro a ha
        unfold headerReads at ha
        split_ifs at ha <;> simp at ha <;> omega
      have hdrop : (data.drop pos).drop (8 + wLength (data.drop pos)) = data.drop (pos + (8 + wLength (data.drop pos))) := drop_drop
      have hfront : ∀ l : List ℕ, (∀ a ∈ headerReads m pos ++ l, a < data.length) ↔ ∀ a ∈ l, a < data.length :=
        fun l => ⟨fun h a ha => h a (mem_append_right _ ha), fun h a ha => (mem_append.1 ha).elim (hreads a) (h a)⟩
      rw [hhere, hword, hdrop, hfront]
      generalize hwl : wLength (data.drop pos) = len
      by_cases hfits : 8 + len ≤ data.length - pos
      · rw [if_pos hfits, if_pos hfits, flatMap_cons, linkOf_take (Nat.le_add_right ..)]
        rw [append_cancel_left_eq]
        have h8 : 8 ≤ data.length - pos := by omega
        by_cases hnext : pos + (8 + len) < data.length
        · rw [if_pos hnext, if_pos hnext, ih hnext (by omega)]
          exact ⟨fun h => ⟨h8, h⟩, fun h => h.2⟩
        · have hend : data.drop (pos + (8 + len)) = [] := drop_eq_nil_of_le (by omega)
          rw [if_neg hnext, if_neg hnext, hend, whole_nil, notifications_nil]
          exact ⟨fun _ => ⟨h8, rfl⟩, fun _ => ⟨fun a ha => absurd ha not_mem_nil, rfl⟩⟩
      · rw [if_neg hfits, if_neg hfits, if_neg (by omega), if_neg (by omega), append_nil]
        cases linkOf (data.drop pos) with
        | none => simp; omega
        | some b => simp
    · -- `wLength` is read behind the end
      refine ⟨fun h => ?_, fun h => by omega⟩
      have hlast := h.1 (pos + 7) (mem_append_left _ (mem_append_right _ (by simp)))
      omega

/-! ### The callback -/

lemma reports_link (rs : List Bool) (w : Driver) :
    ((rs.foldl (networkConnection d) w).data d).map linkUp = (w.data d).map fun dev => rs.getLast?.getD dev.linkUp := by
  induction rs generalizing w with
  | nil => rfl
  | cons r rs ih =>
    have hone : (networkConnection d w r).data d = (w.data d).map (report r) := by
      rw [← Driver.onDevice_self]
      unfold networkConnection
      dsimp only
      split_ifs <;> rfl
    rw [foldl_cons, ih, hone, Option.map_map, getLast?_cons]
    rfl

lemma interrupt_link (hd : w.data d = some dev) (hne : data ≠ []) : ((interruptReceiveCallback d true data w).data d).map linkUp =
      some ((reportsIn data.length (dev.completeInt data)).getLast?.getD dev.linkUp) := by
  have hcomplete : (w.onDevice d (completeInt data)).data d = some (dev.completeInt data) := by
    rw [Driver.onDevice_self, hd]
    rfl
  unfold interruptReceiveCallback
  simp only [Bool.true_eq_false, if_false, hne, Driver.onDevice_self]
  rw [Option.map_map, hd]
  refine (reports_link _ _).trans ?_
  rw [hcomplete]
  rfl

/-- **Notifications.**  The callback stays inside the transfer and applies the complete notifications if and only if the transfer
is made of whole ones. -/
theorem notified_iff_whole (d : ℕ) (w : Driver) (dev : EthDevice) (hd : w.data d = some dev) (data : Bytes) (hne : data ≠ []) :
    Notified d w dev data ↔ Whole data.length data = true := by
  have hm : ∀ i < data.length, (dev.completeInt data).intBuf i = data.getD i 0 := by
    intro i hi
    change dev.intBuf.write 0 data i = _
    simp [Mem.write, hi]
  have hpos : 0 < data.length := length_pos_iff.2 hne
  have hloop := loop_iff_whole data.length hm hpos (Nat.sub_le ..)
  rw [drop_zero] at hloop
  rw [← hloop]
  constructor
  · intro h
    exact ⟨h.inside, h.applied⟩
  · rintro ⟨hreads, hreports⟩
    refine ⟨hreads, fun k => connectionReports_more (Nat.sub_le ..) hpos k, hreports, ?_⟩
    rw [interrupt_link hd hne]
    exact congrArg (fun l : List Bool => some (l.getLast?.getD dev.linkUp)) hreports

theorem notified_two : Notified 0 { data := fun _ => some { type := .ecm, num := 0 } } { type := .ecm, num := 0 }
    [0xA1, 0, 1, 0, 0, 0, 0, 0, 0xA1, 0x2A, 0, 0, 0, 0, 1, 0, 9] :=
  (notified_iff_whole 0 _ _ rfl _ (by simp)).2 (by decide)

/-- **Half a notification.**  Four bytes have been transferred: the callback reads behind them, and sets the link up. -/
theorem half_notification : (7 ∈ reportReads (Mem.ofBytes [0xA1, 0, 1, 0]) 4 4 0) ∧ linksIn [0xA1, 0, 1, 0] = [] ∧
    ((interruptReceiveCallback 0 true [0xA1, 0, 1, 0] { data := fun _ => some { type := .ecm, num := 0 } }).data 0).map
      linkUp = some true := by
  refine ⟨by decide, by decide, rfl⟩

end LwftpCe.Eth
