import LwftpCe.Buffer.Growth
import LwftpCe.Eth.Rx

/-!
# The receive ring holds whole frames

The queue of a receive ring is a concatenation of records, and the frames that are handed to lwIP are those that have been
pushed, in order (`rx_ring_frames`).  A frame is stored in three steps, and the last one asks for room again: it may be
refused once the header is in the ring (`header_left_behind`), unless the ring is ready for it (`storable`).
-/

namespace LwftpCe.Eth

open Lib Buffer List Function Answer

variable {σ : Type} {E : Env σ} {net : Net σ} {i n : ℕ} {s t : Sys σ} {rb rb' : MemBuffer} {frame : Bytes}

/-! ### Records -/

def record (frame : Bytes) : Bytes := lenBytes frame.length ++ frame

def records (frames : List Bytes) : Bytes := frames.flatMap record

@[simp] lemma length_lenBytes (len : ℕ) : (lenBytes len).length = 2 := rfl

lemma lenOf_lenBytes {len : ℕ} (h : len < 65536) (l : Bytes) : lenOf (lenBytes len ++ l) = len := by
  simp only [lenBytes, cons_append, lenOf, UInt8.toNat_ofNat']
  omega

def IsFrame (frame : Bytes) : Prop := frame ≠ [] ∧ frame.length < 65536

instance : DecidablePred IsFrame := fun frame => inferInstanceAs (Decidable (frame ≠ [] ∧ frame.length < 65536))

/-! ### The ring -/

structure RxRing (rb : MemBuffer) : Prop where
  growing : Growing rb
  maxCap : rb.maxCap = rxRingMaxSize
  owner : rb.owner = .ethRx

lemma RxRing.isRing (h : RxRing rb) : IsRing rb := h.growing.isRing

lemma RxRing.len_le (h : RxRing rb) : rb.len ≤ 2048 := h.isRing.len_le.trans (h.isRing.cap_le.trans_eq h.maxCap)

lemma RxRing.head_lt (h : RxRing rb) : rb.head < 2048 :=
  lt_of_lt_of_le h.isRing.head_lt (h.isRing.cap_le.trans_eq h.maxCap)

lemma RxRing.fixed (h : RxRing rb) (hr : IsRing rb') (hf : Fixed rb rb') : RxRing rb' := by
  refine ⟨⟨hr, ?_, ?_, ?_⟩, hf.maxCap.trans h.maxCap, hf.owner.trans h.owner⟩
  · rw [hf.flags]
    exact h.growing.lock
  · rw [hf.step]
    exact h.growing.step_pos
  · rw [hf.maxCap, hf.step]
    exact h.growing.small

lemma createRxRing_rxRing (h : createRxRing E s = (some i, t)) : RxRing (t.buf i) ∧ queue (t.buf i) = [] := by
  unfold createRxRing at h
  generalize hcreate : memBufferCreate E rxRingInitSize rxRingMaxSize 0 {} s = x at h
  obtain ⟨_ | j, u⟩ := x
  · cases h
  cases h
  obtain ⟨hring, hq⟩ := create_ring rfl (by decide) (by decide) (by decide) hcreate
  obtain ⟨-, cfg, self, b, w, hw, -, hu⟩ := create_buffer hcreate
  have hu' : u.buf i = w.buf i := congrFun hu i
  have hlock : (u.buf i).flags.lockSize = false := by rw [hu', hw]; rfl
  have hmax : (u.buf i).maxCap = 2048 := by rw [hu', hw]; rfl
  have hset : Kept (u.buf i) (rxRingSettings (u.buf i)) := .of_fields hring rfl rfl rfl rfl rfl rfl
  rw [Sys.onBuf_self]
  refine ⟨⟨⟨hset.isRing, hlock, (by decide : 0 < 512), ?_⟩, hmax, rfl⟩, hset.queue.trans hq⟩
  change (u.buf i).maxCap + 512 < _
  rw [hmax]
  decide

/-! ### The operations on the ring -/

lemma rx_reserve (h : RxRing (s.buf i)) (hn : n ≤ 65537) :
    RxRing ((memBufferReserve E i n s).2.buf i) ∧ queue ((memBufferReserve E i n s).2.buf i) = queue (s.buf i) := by
  have hlen := h.len_le
  obtain ⟨hr, -, hq⟩ := play_serves (.reserve n) h.isRing
    (decide_eq_true (by unfold uintRange; omega : (s.buf i).len + n < uintRange))
  exact ⟨h.fixed hr (Moves.reserve n s).fixed, hq⟩

lemma rx_push (data : Bytes) (h : RxRing (s.buf i)) (hn : data.length ≤ 65535) :
    RxRing ((memBufferPush E i data s).2.buf i) ∧ queue ((memBufferPush E i data s).2.buf i) =
      if (memBufferPush E i data s).1 then queue (s.buf i) ++ data else queue (s.buf i) := by
  have hlen := h.len_le
  have hhead := h.head_lt
  have hfit : (s.buf i).len + data.length < uintRange ∧ (s.buf i).head + (s.buf i).len < uintRange := by
    unfold uintRange
    omega
  obtain ⟨hr, hs⟩ := play_serves (.push data) h.isRing (decide_eq_true hfit)
  refine ⟨h.fixed hr (Moves.push data s).fixed, ?_⟩
  rcases hs with ⟨ha, hq⟩ | ⟨ha, hq⟩
  · rw [flag.inj ha]
    exact hq
  · rw [flag.inj ha]
    exact hq

lemma rx_pop (h : RxRing (s.buf i)) (hn : n ≤ (s.buf i).len) :
    RxRing ((memBufferPop E i n s).2.buf i) ∧ (memBufferPop E i n s).1 = (queue (s.buf i)).take n ∧
      queue ((memBufferPop E i n s).2.buf i) = (queue (s.buf i)).drop n := by
  have hlen := h.len_le
  have hhead := h.head_lt
  obtain ⟨hr, hs⟩ := play_serves (.pop n) h.isRing
    (decide_eq_true (by unfold uintRange; omega : (s.buf i).head + n < uintRange))
  refine ⟨h.fixed hr (Moves.pop n s).fixed, ?_⟩
  simp only [Serves, play, length_queue] at hs
  split_ifs at hs with h0
  · exact ⟨bytes.inj hs.1, hs.2⟩
  · have : n = 0 := by omega
    subst this
    exact ⟨bytes.inj hs.1, hs.2⟩

lemma rx_peek (h : RxRing (s.buf i)) (hlen : 2 ≤ (s.buf i).len) : memBufferPeek (s.buf i) 0 2 = some ((queue (s.buf i)).take 2) := by
  have hhead := h.head_lt
  obtain ⟨-, ha, -⟩ := play_serves (E := ⟨0, fun _ w => w, fun _ w => w⟩) (.peek 0 2) h.isRing
    (decide_eq_true (by unfold uintRange; omega : 0 + 2 < uintRange ∧ (s.buf i).head + 0 < uintRange))
  simp only [play, length_queue] at ha
  rw [if_pos (by omega)] at ha
  exact peeked.inj ha

/-! ### A frame into the ring -/

instance (k i : ℕ) (s : Sys σ) : Decidable (Ample k i s) :=
  decidable_of_iff ((∀ j < k, (s.allocs (s.calls + j)).isSome) ∧ s.cfg.maxHeap < uintRange ∧
      (s.cfg.maxHeap = 0 ∨ s.cfg.heapUsed + ((s.buf i).maxCap - (s.buf i).cap) ≤ s.cfg.maxHeap))
    ⟨fun h => ⟨h.1, h.2.1, h.2.2⟩, fun h => ⟨h.allocs, h.maxHeap, h.budget⟩⟩

/-- Once room is reserved for the frame, the pushes need no other growth: the bytes stay below the threshold, or the ring is
at its limit, or every growth is served. -/
def storable (i : ℕ) (s : Sys σ) (frame : Bytes) : Bool :=
  let rb := s.buf i
  let needed := rb.len + (frame.length + 2)
  let cap := roomCap rb needed
  needed < thresholdBytes cap rb.growThresholdPct ∨ cap = rb.maxCap ∨ Ample 3 i s

lemma storable.ready (h : RxRing (s.buf i)) (hf : frame.length < 65536) (hok : storable i s frame)
    (hres : memBufferMaybeGrow E i (frame.length + 2) s = (true, t)) :
    Ready 2 ((s.buf i).len + (frame.length + 2)) i t := by
  have hlen := h.len_le
  have hsum : uadd (s.buf i).len (frame.length + 2) = (s.buf i).len + (frame.length + 2) :=
    uadd_of_lt (by unfold uintRange; omega)
  have hcap := maybeGrow_cap h.growing.lock hres
  have hroom := maybeGrow_room hres
  have hmoves := (Moves.refl (E := E) (i := i) (s := s)).maybeGrow (frame.length + 2)
  rw [hres] at hmoves
  have hfix : Fixed (s.buf i) (t.buf i) := hmoves.fixed
  have ht : IsRing (t.buf i) := by
    have := (maybeGrow_kept (E := E) h.isRing (by omega : 0 < frame.length + 2) (by unfold uintRange; omega)).1.isRing
    rwa [hres] at this
  rw [hsum] at hcap hroom
  have hmax : (s.buf i).len + (frame.length + 2) ≤ (t.buf i).maxCap := hroom.trans ht.cap_le
  refine ⟨hmax, ?_⟩
  simp only [storable, Bool.decide_or, Bool.or_eq_true, decide_eq_true_eq] at hok
  rcases hok with hbelow | hfull | hample
  · refine .inl ⟨hroom, ?_⟩
    rw [hcap, hfix.growThresholdPct]
    exact hbelow
  · refine .inr (.inl ?_)
    rw [hcap, hfix.maxCap]
    exact hfull
  · -- the growth of the reservation was one of the three
    have hneed : (s.buf i).len + (frame.length + 2) ≤ (s.buf i).maxCap := hfix.maxCap ▸ hmax
    obtain ⟨t', ht', hready⟩ := Ready.maybeGrow h.growing
      ⟨hneed, .inr (.inr hample)⟩ le_rfl
    rw [hres] at ht'
    cases ht'
    exact hready.2

lemma Ready.push {k need : ℕ} (data : Bytes) (h : RxRing (s.buf i)) (hready : Ready (k + 1) need i s) (hdata : data ≠ [])
    (hn : (s.buf i).len + data.length ≤ need) : ∃ t, memBufferPush E i data s = (true, t) ∧ Ready k need i t := by
  obtain ⟨t, ht, hready⟩ := hready.maybeGrow h.growing hn
  unfold memBufferPush
  rw [if_neg (by simp [hdata, h.isRing.ring]), ht]
  exact ⟨_, rfl, hready.setRing rfl⟩

lemma pushFrame_record (h : RxRing (s.buf i)) (hf : IsFrame frame) (hok : storable i s frame) :
    RxRing ((ethRingPushFrame E (some i) frame s).2.buf i) ∧ queue ((ethRingPushFrame E (some i) frame s).2.buf i) =
      if (ethRingPushFrame E (some i) frame s).1 then queue (s.buf i) ++ record frame else queue (s.buf i) := by
  obtain ⟨h0, hlt⟩ := hf
  obtain ⟨hr1, hq1⟩ := rx_reserve h (by omega : frame.length + 2 ≤ 65537)
  unfold ethRingPushFrame
  simp only [h0, if_false]
  generalize hres : memBufferReserve E i (frame.length + 2) s = x at hr1 hq1
  obtain ⟨_ | _, t⟩ := x
  · exact ⟨hr1, hq1⟩
  have hready := storable.ready h hlt hok (by
    unfold memBufferReserve at hres
    rwa [if_neg (by simp [h.isRing.ring])] at hres)
  have hlen : (t.buf i).len = (s.buf i).len := by simpa using congrArg List.length hq1
  obtain ⟨hr2, hq2⟩ := rx_push (E := E) (lenBytes frame.length) hr1 (by simp)
  obtain ⟨u, hu, hready⟩ := Ready.push (E := E) (lenBytes frame.length) hr1 hready (by simp [lenBytes])
    (by rw [length_lenBytes]; dsimp only; omega)
  simp only [hu] at hr2 hq2 ⊢
  have hlen2 : (u.buf i).len = (s.buf i).len + 2 := by
    have := congrArg List.length hq2
    simpa [hlen] using this
  obtain ⟨hr3, hq3⟩ := rx_push (E := E) frame hr2 (by omega)
  obtain ⟨v, hv, -⟩ := Ready.push (E := E) frame hr2 hready h0 (by omega)
  simp only [hv, if_true] at hr3 hq2 hq3 ⊢
  refine ⟨hr3, ?_⟩
  rw [hq3, hq2, hq1, append_assoc]
  rfl

/-! ### The frames out of the ring -/

/-- What lwIP does with a frame leaves the ring alone, and a chain of pbufs is as long as it is asked to be. -/
structure Net.Leaves (net : Net σ) (i : ℕ) : Prop where
  pbufAlloc_buf : ∀ len s, (net.pbufAlloc len s).2.buf i = s.buf i
  pbufAlloc_sum : ∀ len s chain t, net.pbufAlloc len s = (some chain, t) → chain.sum = len
  pbufFree_buf : ∀ chain s, (net.pbufFree chain s).buf i = s.buf i
  input_buf : ∀ frame s, (net.input frame s).2.buf i = s.buf i

lemma popChain_take : ∀ (chain : List ℕ) {remaining : ℕ} {s : Sys σ}, RxRing (s.buf i) → remaining ≤ chain.sum →
    remaining ≤ (s.buf i).len →
    ∃ t, popChain E i chain remaining s = (((queue (s.buf i)).take remaining, 0), t) ∧ RxRing (t.buf i) ∧
      queue (t.buf i) = (queue (s.buf i)).drop remaining := by
  intro chain
  induction chain with
  | nil =>
    intro remaining s h hsum _
    have : remaining = 0 := by simpa using hsum
    subst this
    exact ⟨s, rfl, h, rfl⟩
  | cons q qs ih =>
    intro remaining s h hsum hlen
    rw [sum_cons] at hsum
    unfold popChain
    by_cases h0 : remaining = 0
    · subst h0
      exact ⟨s, rfl, h, rfl⟩
    simp only [if_neg h0]
    obtain ⟨hr, hbytes, hq⟩ := rx_pop h (by omega : min q remaining ≤ (s.buf i).len)
    generalize memBufferPop E i (min q remaining) s = x at hr hbytes hq
    obtain ⟨bs, u⟩ := x
    dsimp only at hr hbytes hq ⊢
    have hlen' : (u.buf i).len = (s.buf i).len - min q remaining := by simpa using congrArg List.length hq
    obtain ⟨t, ht, hrt, hqt⟩ := ih hr (by omega : remaining - min q remaining ≤ qs.sum) (by omega)
    refine ⟨t, ?_, hrt, ?_⟩
    · rw [ht, hbytes, hq, ← take_add, Nat.add_sub_cancel' (min_le_right _ _)]
    · rw [hqt, hq, drop_drop, Nat.add_sub_cancel' (min_le_right _ _)]

lemma drainFrame_record (hnet : net.Leaves i) (h : RxRing (s.buf i)) {pending : List Bytes}
    (hframes : ∀ f ∈ pending, IsFrame f) (hq : queue (s.buf i) = records pending) :
    RxRing ((drainFrame E net i s).2.buf i) ∧ ∃ rest, queue ((drainFrame E net i s).2.buf i) = records rest ∧
      pending = (drainFrame E net i s).1.toList ++ rest := by
  have hlen : (s.buf i).len = (records pending).length := by rw [← hq, length_queue]
  unfold drainFrame
  cases pending with
  | nil =>
    rw [if_pos (by rw [hlen]; decide)]
    exact ⟨h, [], hq, rfl⟩
  | cons f fs =>
    obtain ⟨-, hlt⟩ := hframes f (mem_cons_self ..)
    have hrec : queue (s.buf i) = lenBytes f.length ++ (f ++ records fs) := by
      rw [hq, records, flatMap_cons, record]
      rfl
    have hlen : (s.buf i).len = 2 + (f.length + (records fs).length) := by
      rw [← length_queue, hrec]
      simp
    rw [if_neg (by omega), rx_peek h (by omega)]
    have hhdr : lenOf ((queue (s.buf i)).take 2) = f.length := by
      rw [hrec, take_left' (length_lenBytes _)]
      exact lenOf_lenBytes hlt []
    simp only [hhdr]
    rw [if_neg (by omega)]
    have hbuf := hnet.pbufAlloc_buf f.length s
    generalize halloc : net.pbufAlloc f.length s = x at hbuf
    obtain ⟨_ | chain, u⟩ := x
    · rw [hbuf]
      exact ⟨h, f :: fs, hq, rfl⟩
    · have hsum := hnet.pbufAlloc_sum _ _ _ _ halloc
      have hu : u.buf i = s.buf i := hbuf
      -- the header, and then the payload
      obtain ⟨hr1, -, hq1⟩ := rx_pop (n := 2) (by rw [hu]; exact h) (by rw [hu]; omega)
      rw [hu, hrec, drop_left' (length_lenBytes _)] at hq1
      have hlen1 : ((memBufferPop E i 2 u).2.buf i).len = f.length + (records fs).length := by
        rw [← length_queue, hq1, length_append]
      obtain ⟨t, ht, hrt, hqt⟩ := popChain_take (E := E) chain hr1 (by omega : f.length ≤ chain.sum) (by omega)
      simp only [ht, ne_eq, not_true_eq_false, if_false]
      have hframe : List.take f.length (queue ((memBufferPop E i 2 u).2.buf i)) = f := by
        rw [hq1, take_left' rfl]
      have hrest : queue (t.buf i) = records fs := by rw [hqt, hq1, drop_left' rfl]
      rw [hframe]
      have hin := hnet.input_buf f t
      generalize net.input f t = y at hin
      obtain ⟨_ | _, v⟩ := y
      · rw [hnet.pbufFree_buf, hin]
        exact ⟨hrt, fs, hrest, rfl⟩
      · rw [hin]
        exact ⟨hrt, fs, hrest, rfl⟩

lemma drain_records (hnet : net.Leaves i) : ∀ (budget : ℕ) {s : Sys σ}, RxRing (s.buf i) → ∀ {pending : List Bytes},
    (∀ f ∈ pending, IsFrame f) → queue (s.buf i) = records pending →
    RxRing ((ethRxRingDrain E net i budget s).2.buf i) ∧
      ∃ rest, queue ((ethRxRingDrain E net i budget s).2.buf i) = records rest ∧
        pending = (ethRxRingDrain E net i budget s).1 ++ rest := by
  intro budget
  induction budget with
  | zero =>
    intro s h pending _ hq
    exact ⟨h, pending, hq, rfl⟩
  | succ budget ih =>
    intro s h pending hframes hq
    obtain ⟨hr, rest, hrest, hpending⟩ := drainFrame_record hnet h hframes hq
    unfold ethRxRingDrain
    generalize drainFrame E net i s = x at hr hrest hpending
    obtain ⟨_ | f, u⟩ := x
    · exact ⟨hr, rest, hrest, hpending⟩
    · obtain ⟨hr', rest', hrest', hpending'⟩ := ih hr (fun f hf => hframes f (by rw [hpending]; simp [hf])) hrest
      refine ⟨hr', rest', hrest', ?_⟩
      rw [hpending, hpending']
      rfl

/-! ### Runs -/

/-- What is done to a receive ring; between these anything can happen elsewhere. -/
inductive RxOp (σ : Type) where
  | push (frame : Bytes)
  | drain (budget : ℕ)
  | elsewhere (s : Sys σ)

structure RxLog (σ : Type) where
  s : Sys σ
  pushed : List Bytes := []
  handed : List Bytes := []

def RxLog.step (E : Env σ) (net : Net σ) (i : ℕ) (m : RxLog σ) : RxOp σ → Option (RxLog σ)
  | .push frame =>
    let (ok, s) := ethRingPushFrame E (some i) frame m.s
    some { m with s, pushed := if ok then m.pushed ++ [frame] else m.pushed }
  | .drain budget =>
    let (frames, s) := ethRxRingDrain E net i budget m.s
    some { m with s, handed := m.handed ++ frames }
  | .elsewhere t => some { m with s := { t with buf := Function.update t.buf i (m.s.buf i) } }

def frameFits (i : ℕ) (m : RxLog σ) : RxOp σ → Bool
  | .push frame => decide (IsFrame frame) && storable i m.s frame
  | _ => true

/-- The invariant: the ring holds the frames that have not been handed over. -/
structure Framed (i : ℕ) (m : RxLog σ) : Prop where
  ring : RxRing (m.s.buf i)
  frames : ∀ f ∈ m.pushed, IsFrame f
  pending : ∃ pending, queue (m.s.buf i) = records pending ∧ m.pushed = m.handed ++ pending

lemma Framed.step (hnet : net.Leaves i) {m m' : RxLog σ} {op : RxOp σ} (h : Framed i m) (hok : frameFits i m op)
    (hstep : RxLog.step E net i m op = some m') : Framed i m' := by
  obtain ⟨hring, hframes, pending, hq, hpushed⟩ := h
  cases op with
  | push frame =>
    simp only [frameFits, Bool.and_eq_true, decide_eq_true_eq] at hok
    obtain ⟨hr, hqueue⟩ := pushFrame_record hring hok.1 hok.2
    simp only [RxLog.step] at hstep
    generalize ethRingPushFrame E (some i) frame m.s = x at hr hqueue hstep
    obtain ⟨_ | _, t⟩ := x
    · cases hstep
      exact ⟨hr, hframes, pending, hqueue.trans hq, hpushed⟩
    · cases hstep
      refine ⟨hr, ?_, pending ++ [frame], ?_, ?_⟩
      · intro f hf
        rcases mem_append.1 hf with hf | hf
        · exact hframes f hf
        · rw [mem_singleton.1 hf]
          exact hok.1
      · rw [records, flatMap_append, flatMap_singleton]
        exact hqueue.trans (by rw [hq]; rfl)
      · rw [← append_assoc, ← hpushed]
        rfl
  | drain budget =>
    obtain ⟨hr, rest, hrest, hpending⟩ := drain_records hnet budget hring
      (fun f hf => hframes f (by rw [hpushed]; simp [hf])) hq
    simp only [RxLog.step] at hstep
    generalize ethRxRingDrain E net i budget m.s = x at hr hrest hpending hstep
    cases hstep
    refine ⟨hr, hframes, rest, hrest, ?_⟩
    rw [append_assoc, ← hpending]
    exact hpushed
  | elsewhere t =>
    cases hstep
    refine ⟨?_, hframes, pending, ?_, hpushed⟩
    · dsimp only
      rw [update_self]
      exact hring
    · dsimp only
      rw [update_self]
      exact hq

/-- **The receive ring holds whole frames.**  From its creation on, in every run whose frames can be stored, the ring is a
concatenation of complete records, the frames handed to lwIP are those whose push has returned `true`, in order, up to the ones
in the ring, and a push that returns `false` leaves the ring as it was. -/
theorem rx_ring_frames (E : Env σ) (net : Net σ) (i : ℕ) (s t : Sys σ) (hcreate : createRxRing E s = (some i, t))
    (hnet : net.Leaves i) (ops : List (RxOp σ)) (m : RxLog σ)
    (h : run (guarded (frameFits i) (RxLog.step E net i)) ⟨t, [], []⟩ ops = some m) :
    (∃ pending, queue (m.s.buf i) = records pending ∧ m.pushed = m.handed ++ pending) ∧
      ∀ frame, frameFits i m (.push frame) → (ethRingPushFrame E (some i) frame m.s).1 = false →
        queue ((ethRingPushFrame E (some i) frame m.s).2.buf i) = queue (m.s.buf i) := by
  obtain ⟨hring, hempty⟩ := createRxRing_rxRing hcreate
  have hinv : Framed i m := by
    refine run_inv (Framed i) ?_ ⟨hring, by simp, [], hempty, rfl⟩ h
    intro m op m' hm hstep
    obtain ⟨hok, hstep⟩ := guarded_some.1 hstep
    exact hm.step hnet hok hstep
  refine ⟨hinv.pending, fun frame hok hfalse => ?_⟩
  simp only [frameFits, Bool.and_eq_true, decide_eq_true_eq] at hok
  rw [(pushFrame_record hinv.ring hok.1 hok.2).2, hfalse, if_neg (by simp)]

def plainNet : Net Unit := ⟨fun len s => (some [len], s), fun _ s => s, fun _ s => (true, s)⟩

lemma plainNet_leaves (i : ℕ) : plainNet.Leaves i := by
  refine ⟨fun _ _ => rfl, ?_, fun _ _ => rfl, fun _ _ => rfl⟩
  rintro len s chain t h
  cases h
  rfl

theorem rx_ring_frames_two : ∃ t m, createRxRing plainEnv (started 0 plenty) = (some 0, t) ∧
      run (guarded (frameFits 0) (RxLog.step plainEnv plainNet 0)) ⟨t, [], []⟩ [.push [1, 2, 3], .push [4], .drain 1] = some m ∧
      m.handed = [[1, 2, 3]] ∧ queue (m.s.buf 0) = record [4] ∧
      ∃ pending, queue (m.s.buf 0) = records pending ∧ m.pushed = m.handed ++ pending :=
  ⟨_, _, rfl, rfl, by decide +kernel, by decide +kernel,
    (rx_ring_frames plainEnv plainNet 0 (started 0 plenty) _ rfl (plainNet_leaves 0)
      [.push [1, 2, 3], .push [4], .drain 1] _ rfl).1⟩

def noFourth (n : ℕ) : Option Raw := if n = 3 then none else plenty n

/-- **The header is left behind.**  The frame of 900 bytes is refused, and two bytes of it are in the ring: there is room for
the payload, but the ring wants to grow once more, and cannot. -/
theorem header_left_behind : ∃ t, createRxRing plainEnv (started 0 noFourth) = (some 0, t) ∧ queue (t.buf 0) = [] ∧
      IsFrame (List.replicate 900 7) ∧ (ethRingPushFrame plainEnv (some 0) (List.replicate 900 7) t).1 = false ∧
      queue ((ethRingPushFrame plainEnv (some 0) (List.replicate 900 7) t).2.buf 0) = [3, 132] ∧
      ¬ ∃ pending, records pending = [3, 132] := by
  refine ⟨_, rfl, by decide +kernel, by decide +kernel, by decide +kernel, by decide +kernel, ?_⟩
  rintro ⟨pending, h⟩
  cases pending with
  | nil => cases h
  | cons f fs =>
    -- the record of `f` alone would be longer
    have hlen := congrArg List.length h
    have hf : f = [] := by
      simp [records, record] at hlen
      exact hlen.1
    subst hf
    cases h

end LwftpCe.Eth
