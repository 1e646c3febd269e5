import LwftpCe.Eth.Throttle

/-!
# The receive rings of the devices

Every device with a receive ring has a ring of its own, and the driver knows the level of the pressure: that holds in every
state (`Sane.step`).  An operation elsewhere does not touch the rings; what its moves keep, it keeps (`elsewhere_rule`).
-/

namespace LwftpCe.Eth

open Lib Buffer List Function Driver EthDevice Moves

def Driver.ringOf (w : Driver) (d : ℕ) : Option ℕ := (w.data d).bind EthDevice.rxRing

/-- The rings of the devices are receive rings, and no two devices share one. -/
structure Rings (s : Sys Driver) : Prop where
  ring : ∀ d i, s.world.ringOf d = some i → RxRing (s.buf i) ∧ i < s.calls
  distinct : ∀ d e i, s.world.ringOf d = some i → s.world.ringOf e = some i → d = e

/-- No pool of lwIP is a receive ring, or will be. -/
def PoolsApart (s : Sys Driver) : Prop :=
  ∀ i, i ∈ s.lwipPools ∨ s.lwipHeap = some i → i < s.calls ∧ (s.buf i).owner ≠ .ethRx

structure Sane (s : Sys Driver) : Prop where
  told : Told s
  rings : Rings s
  pools : PoolsApart s

/-- The start of the driver: there is no device, and no receive ring has been under pressure.  The pools of lwIP, which are
there before it, may be, and the percentage at which pressure is cleared is the one that `lwip_init` has set. -/
structure Starting (s : Sys Driver) : Prop where
  world : s.world = {}
  hook : s.prs.ethHook = false
  level : s.prs.ethLevel = .none
  effective : s.prs.ethEffective = Pressure.pools s.prs
  clearPct : s.prs.clearPct ≤ 100
  pools : PoolsApart s

section Rules

variable {k i : ℕ} {s t u : Sys Driver} {w : Driver} {P : Sys Driver → Prop} {E : Env Driver} {d : ℕ} {net : Net Driver}
  {data : Bytes} {dev : EthDevice}

lemma Driver.ringOf_face (w : Driver) (d : ℕ) : w.ringOf d = (w.face.device d).bind fun x => x.2.1 := by
  change (w.data d).bind EthDevice.rxRing = ((w.data d).map EthDevice.face).bind _
  cases w.data d with
  | none => rfl
  | some dev => rfl

lemma ringOf_congr {w' : Driver} (h : w'.face = w.face) : w'.ringOf = w.ringOf := by
  funext d
  rw [ringOf_face, ringOf_face, h]

lemma Nudge.face (h : Nudge s t) : t.world.face = s.world.face := by
  rw [h.world]
  split_ifs
  · exact ethSetRxThrottle_face ..
  · rfl

lemma Rings.congr (h : Rings s) (hring : t.world.ringOf = s.world.ringOf)
    (hbuf : ∀ d i, s.world.ringOf d = some i → t.buf i = s.buf i) (hcalls : s.calls ≤ t.calls) : Rings t := by
  refine ⟨fun d i hd => ?_, fun d e i => ?_⟩
  · rw [hring] at hd
    obtain ⟨hr, hlt⟩ := h.ring d i hd
    exact ⟨hbuf d i hd ▸ hr, lt_of_lt_of_le hlt hcalls⟩
  · rw [hring]
    exact h.distinct d e i

lemma Rings.update (h : Rings s) (hring : t.world.ringOf = s.world.ringOf) (hb : Beside i s t)
    (hi : RxRing (s.buf i) → RxRing (t.buf i)) : Rings t := by
  refine ⟨fun d j hd => ?_, fun d e j => ?_⟩
  · rw [hring] at hd
    obtain ⟨hr, hlt⟩ := h.ring d j hd
    refine ⟨?_, lt_of_lt_of_le hlt hb.calls⟩
    rcases eq_or_ne j i with rfl | hne
    · exact hi hr
    · rw [hb.buf j hne]
      exact hr
  · rw [hring]
    exact h.distinct d e j

/-! ### Moves -/

/-- One move of an operation on the buffer `i`. -/
structure Touch (i : ℕ) (s t : Sys Driver) : Prop where
  buf : ∀ j, j ≠ i → t.buf j = s.buf j
  owner : (t.buf i).owner = (s.buf i).owner
  felt : Silent s t ∨ Nudge s t ∧ ((s.buf i).owner ≠ .ethRx → t.prs.ethLevel = s.prs.ethLevel)

/-- One move of an operation on the buffer `i`, which is not a receive ring. -/
structure Aside (i : ℕ) (s t : Sys Driver) : Prop where
  buf : ∀ j, j ≠ i → t.buf j = s.buf j
  felt : Silent s t ∨ Nudge s t ∧ t.prs.ethLevel = s.prs.ethLevel

lemma Told.touch (h : Told s) (ht : Touch i s t) : Told t := by
  rcases ht.felt with hst | ⟨hn, -⟩
  · exact h.silent hst
  · exact h.nudge hn

lemma Moves.rule (hP : ∀ u v, Told u → Touch i u v → P u → P v) (hm : Moves (ethEnv k) i s t) (h : Told s) (hs : P s) :
    Told t ∧ P t := by
  have hstep : ∀ {u v : Sys Driver}, Told u ∧ P u → Touch i u v → Told v ∧ P v :=
    fun hu ht => ⟨hu.1.touch ht, hP _ _ hu.1 ht hu.2⟩
  refine hm.inv (fun t => Told t ∧ P t) ?_ ?_ ?_ ?_ ⟨h, hs⟩
  · intro t f ht hf
    refine hstep ht ⟨fun j hne => update_of_ne hne .., ?_, .inl ⟨rfl, rfl⟩⟩
    rw [Sys.onBuf_self, hf.owner]
  · intro t _ _ _ ht
    exact hstep ht ⟨fun _ _ => rfl, rfl, .inl ⟨rfl, rfl⟩⟩
  · intro t level ht
    have hq := quiet_mark (E := ethEnv k) i level t
    exact hstep ht ⟨fun j hne => hq.buf_other hne, hq.owner,
      .inr ⟨nudge_mark ht.1 i level, fun ho => (nudge_mark_aside ht.1 ho level).2⟩⟩
  · intro t ht
    have hq := quiet_maybeClear (E := ethEnv k) i t
    exact hstep ht ⟨fun j hne => hq.buf_other hne, hq.owner,
      .inr ⟨nudge_clear ht.1 i, fun ho => (nudge_clear_aside ht.1 ho).2⟩⟩

lemma Told.moves (h : Told s) (hm : Moves (ethEnv k) i s t) : Told t :=
  (Moves.rule (fun _ _ _ _ _ => trivial) hm h trivial).1

lemma Moves.aside (hP : ∀ u v, Told u → Aside i u v → P u → P v) (hm : Moves (ethEnv k) i s t)
    (hown : (s.buf i).owner ≠ .ethRx) (h : Told s) (hs : P s) : P t := by
  refine (rule (P := fun u => P u ∧ (u.buf i).owner ≠ .ethRx) ?_ hm h ⟨hs, hown⟩).2.1
  rintro u v hu ht ⟨hp, ho⟩
  exact ⟨hP u v hu ⟨ht.buf, ht.felt.imp_right fun hn => ⟨hn.1, hn.2 ho⟩⟩ hp, ht.owner.trans_ne ho⟩

/-! ### Operations elsewhere -/

/-- What holds between the moves of an allocation that has begun in `s`. -/
structure Allocating (P : Sys Driver → Prop) (s u : Sys Driver) : Prop where
  kept : P u
  told : Told u
  rings : u.world.ringOf = s.world.ringOf
  owner : ∀ i, i ∈ s.lwipPools ∨ s.lwipHeap = some i → (u.buf i).owner ≠ .ethRx

section Elsewhere

variable (hP : ∀ i s t, (∀ d, s.world.ringOf d ≠ some i) → Told s → Aside i s t → P s → P t)

include hP

/-- The moves of a buffer that is not a ring of a device.  They do not change the rings, which is what the next move needs. -/
lemma aside_rings (hm : Moves (ethEnv k) i s t) (hown : (s.buf i).owner ≠ .ethRx)
    (hring : ∀ d, s.world.ringOf d ≠ some i) (h : Told s) (hp : P s) : P t ∧ Told t ∧ t.world.ringOf = s.world.ringOf := by
  refine Moves.aside (P := fun u => P u ∧ Told u ∧ u.world.ringOf = s.world.ringOf) ?_ hm hown h ⟨hp, h, rfl⟩
  rintro u v hu ha ⟨hpu, -, hru⟩
  refine ⟨hP i u v (fun d => by rw [hru]; exact hring d) hu ha hpu, ?_⟩
  rcases ha.felt with hst | ⟨hn, -⟩
  · exact ⟨hu.silent hst, by rw [hst.2, hru]⟩
  · exact ⟨hu.nudge hn, by rw [ringOf_congr hn.face, hru]⟩

lemma buffer_rule (op : BufOp) (hok : leavesRings s (.buffer op) = true) (hs : Sane s) (hp : P s) :
    P (perform (ethEnv k) s op) := by
  -- the buffer of the operation is not a receive ring
  have hfree : ∀ i, op.target = some i → (s.buf i).owner ≠ .ethRx ∧ ∀ d, s.world.ringOf d ≠ some i := by
    intro i hi
    have howner : (s.buf i).owner ≠ .ethRx := by
      simp only [leavesRings, hi, Option.all_some, Bool.and_eq_true, decide_eq_true_eq] at hok
      exact hok.1.2
    exact ⟨howner, fun d hd => howner (hs.rings.ring d i hd).1.owner⟩
  have hmoves : ∀ i {t : Sys Driver}, op.target = some i → Moves (ethEnv k) i s t → P t :=
    fun i t hi hm => (aside_rings hP hm (hfree i hi).1 (hfree i hi).2 hs.told hp).1
  have hset : ∀ i (f : MemBuffer → MemBuffer), op.target = some i → P (s.onBuf i f) := by
    intro i f hi
    exact hP i s _ (hfree i hi).2 hs.told ⟨fun j hne => update_of_ne hne .., .inl ⟨rfl, rfl⟩⟩ hp
  cases op with
  | create initialCap maxCap lockSize flags =>
    refine hP s.calls s _ (fun d hd => ?_) hs.told ⟨fun j hne => ?_, .inl (Silent.create rfl)⟩ hp
    · exact lt_irrefl _ (hs.rings.ring d _ hd).2
    · exact (create_beside rfl).1.buf j hne
  | destroy i =>
    refine hP i s _ (hfree i rfl).2 hs.told ⟨fun j _ => ?_, .inl (.destroy i s)⟩ hp
    exact congrFun (destroy_rest i s).1 j
  | push i data => exact hmoves i rfl (push data s)
  | pop i len => exact hmoves i rfl (pop len s)
  | reserve i len => exact hmoves i rfl (reserve len s)
  | malloc i size => exact hmoves i rfl (poolMalloc size s)
  | free i ptr => exact hmoves i rfl (poolFree ptr s)
  | setOwner i _ | setGrow i _ _ | setShrink i _ _ | setMaxSize i _ => exact hset i _ rfl

lemma perform_rule (op : LwipOp) (hok : leavesRings s op = true) (hs : Sane s) (hp : P s) :
    P (op.perform (ethEnv k) s) := by
  -- no pool of lwIP is a ring, and none becomes one
  have hkept : ∀ i u v, (i ∈ s.lwipPools ∨ s.lwipHeap = some i) → Moves (ethEnv k) i u v → Beside i u v →
      Allocating P s u → Allocating P s v := by
    intro i u v hi hm hb hu
    have hfree : ∀ d, u.world.ringOf d ≠ some i := by
      intro d hd
      rw [hu.rings] at hd
      exact (hs.pools i hi).2 (hs.rings.ring d i hd).1.owner
    obtain ⟨hpv, hv, hrings⟩ := aside_rings hP hm (hu.owner i hi) hfree hu.told hu.kept
    refine ⟨hpv, hv, hrings.trans hu.rings, fun j hj => ?_⟩
    rcases eq_or_ne j i with rfl | hne
    · exact hm.fixed.owner.trans_ne (hu.owner j hj)
    · rw [hb.buf j hne]
      exact hu.owner j hj
  have hstart : Allocating P s s := ⟨hp, hs.told, rfl, fun i hi => (hs.pools i hi).2⟩
  cases op with
  | buffer op => exact buffer_rule hP op hok hs hp
  | customMalloc size => exact (customMalloc_inv hkept (fun _ hi => hi) size hstart).1.kept
  | customCalloc count size => exact (customCalloc_inv hkept (fun _ hi => hi) count size hstart).kept
  | customFree ptr => exact (customFree_inv hkept (fun _ hi => hi) ptr hstart).kept

end Elsewhere

lemma LwipOp.calls_le (op : LwipOp) (s : Sys Driver) : s.calls ≤ (op.perform E s).calls := by
  have hcalls : ∀ i u v, True → Moves E i u v → Beside i u v → s.calls ≤ u.calls → s.calls ≤ v.calls :=
    fun _ _ _ _ _ hb hu => hu.trans hb.calls
  cases op with
  | buffer op => exact (perform_beside s op).calls
  | customMalloc size => exact (customMalloc_inv hcalls (fun _ _ => trivial) size le_rfl).1
  | customCalloc count size => exact customCalloc_inv hcalls (fun _ _ => trivial) count size le_rfl
  | customFree ptr => exact customFree_inv hcalls (fun _ _ => trivial) ptr le_rfl

namespace PoolsApart

lemma congr (h : PoolsApart s) (hpools : t.lwipPools = s.lwipPools ∧ t.lwipHeap = s.lwipHeap) (hcalls : s.calls ≤ t.calls)
    (howner : ∀ i, i < s.calls → (s.buf i).owner ≠ .ethRx → (t.buf i).owner ≠ .ethRx) : PoolsApart t := by
  intro i hi
  rw [hpools.1, hpools.2] at hi
  obtain ⟨hlt, ho⟩ := h i hi
  exact ⟨hlt.trans_le hcalls, howner i hlt ho⟩

lemma beside (h : PoolsApart s) (hb : Beside i s t) (howner : i < s.calls → (s.buf i).owner ≠ .ethRx → (t.buf i).owner ≠ .ethRx) :
    PoolsApart t := by
  refine h.congr ⟨hb.pools, hb.heap⟩ hb.calls fun j hlt ho => ?_
  rcases eq_or_ne j i with rfl | hne
  · exact howner hlt ho
  · rw [hb.buf j hne]
    exact ho

lemma moves (h : PoolsApart s) (hm : Moves E i s t) (hb : Beside i s t) : PoolsApart t :=
  h.beside hb fun _ ho => hm.fixed.owner.trans_ne ho

lemma perform {op : LwipOp} (h : PoolsApart s) (hok : leavesRings s op = true) : PoolsApart (op.perform E s) := by
  have hmoves : ∀ i u v, True → Moves E i u v → Beside i u v → PoolsApart u → PoolsApart v :=
    fun i u v _ hm hb hu => hu.moves hm hb
  have hset : ∀ i (f : MemBuffer → MemBuffer), (f (s.buf i)).owner = (s.buf i).owner → PoolsApart (s.onBuf i f) := by
    intro i f hf
    refine h.beside ((Beside.refl i s).onBuf f) fun _ ho => ?_
    rw [Sys.onBuf_self, hf]
    exact ho
  cases op with
  | buffer op =>
    cases op with
    | create initialCap maxCap lockSize flags =>
      obtain ⟨hb, -⟩ := create_beside (show memBufferCreate E initialCap maxCap lockSize flags s = _ from rfl)
      exact h.congr ⟨hb.pools, hb.heap⟩ hb.calls fun j hlt ho => (congrArg MemBuffer.owner (hb.buf j hlt.ne)).trans_ne ho
    | destroy i =>
      have hb := destroy_beside (E := E) (Beside.refl i s)
      refine h.congr ⟨hb.pools, hb.heap⟩ hb.calls fun j _ ho => ?_
      exact (congrArg MemBuffer.owner (congrFun (destroy_rest i s).1 j)).trans_ne ho
    | push i data => exact hmoves i _ _ trivial (push data s) (push_beside data s) h
    | pop i len => exact hmoves i _ _ trivial (pop len s) (pop_beside len s) h
    | reserve i len => exact hmoves i _ _ trivial (reserve len s) (reserve_beside len s) h
    | malloc i size => exact hmoves i _ _ trivial (poolMalloc size s) (poolMalloc_beside size s) h
    | free i ptr => exact hmoves i _ _ trivial (poolFree ptr s) (poolFree_beside ptr s) h
    | setOwner i owner =>
      refine h.beside ((Beside.refl i s).onBuf (memBufferSetOwner owner)) fun _ _ => ?_
      simp only [leavesRings, Bool.and_eq_true, decide_eq_true_eq] at hok
      exact (congrArg MemBuffer.owner (Sys.onBuf_self ..)).trans_ne hok.2
    | setGrow i _ _ => exact hset i _ (by unfold memBufferSetGrow; split_ifs <;> rfl)
    | setShrink i _ _ => exact hset i _ (by unfold memBufferSetShrink; split_ifs <;> rfl)
    | setMaxSize i _ => exact hset i _ (by unfold memBufferSetMaxSize; split_ifs <;> rfl)
  | customMalloc size => exact (customMalloc_inv hmoves (fun _ _ => trivial) size h).1
  | customCalloc count size => exact customCalloc_inv hmoves (fun _ _ => trivial) count size h
  | customFree ptr => exact customFree_inv hmoves (fun _ _ => trivial) ptr h

end PoolsApart

lemma Sane.perform {op : LwipOp} (h : Sane s) (hok : leavesRings s op = true) : Sane (op.perform (ethEnv k) s) := by
  have hall := perform_rule (k := k) (P := fun t => Told t ∧ t.world.ringOf = s.world.ringOf ∧
      ∀ d i, s.world.ringOf d = some i → t.buf i = s.buf i) ?_ op hok h ⟨h.told, rfl, fun _ _ _ => rfl⟩
  · obtain ⟨htold, hring, hbuf⟩ := hall
    exact ⟨htold, h.rings.congr hring hbuf (op.calls_le s), h.pools.perform hok⟩
  · rintro i u v hfree hu ha ⟨-, hring, hbuf⟩
    refine ⟨?_, ?_, fun d j hd => ?_⟩
    · rcases ha.felt with hst | ⟨hn, -⟩
      · exact hu.silent hst
      · exact hu.nudge hn
    · rcases ha.felt with hst | ⟨hn, -⟩
      · rw [hst.2, hring]
      · rw [ringOf_congr hn.face, hring]
    · have hne : j ≠ i := by
        rintro rfl
        exact hfree d (by rw [hring]; exact hd)
      rw [ha.buf j hne]
      exact hbuf d j hd

lemma elsewhere_rule (hP : ∀ i s t, (∀ d, s.world.ringOf d ≠ some i) → Told s → Aside i s t → P s → P t)
    (h : Elsewhere (ethEnv k) s t) (hs : Sane s) (hp : P s) : Sane t ∧ P t := by
  refine reflTransGen_inv (fun s => Sane s ∧ P s) ?_ h ⟨hs, hp⟩
  rintro a b ⟨ha, hpa⟩ ⟨op, hok, rfl⟩
  exact ⟨ha.perform hok, perform_rule hP op hok ha hpa⟩

/-! ### The steps of the driver -/

lemma Sane.world (h : Sane s) (hthr : w.ethRxThrottleLevel = s.world.ethRxThrottleLevel) (hring : w.ringOf = s.world.ringOf) :
    Sane { s with world := w } :=
  ⟨h.told.congr rfl hthr, h.rings.congr hring (fun _ _ _ => rfl) le_rfl, h.pools⟩

lemma Driver.ringOf_onDevice (f : EthDevice → EthDevice) (hf : ∀ dev, (f dev).rxRing = dev.rxRing) (d : ℕ) (w : Driver) :
    (w.onDevice d f).ringOf = w.ringOf := by
  funext e
  unfold ringOf
  rcases eq_or_ne e d with rfl | hne
  · rw [onDevice_self]
    cases w.data e with
    | none => rfl
    | some dev => exact hf dev
  · rw [onDevice_other hne]

lemma Sane.completed (h : Sane s) (d : ℕ) (data : Bytes) : Sane (onWorld (onDevice d (completeRx data)) s) :=
  h.world rfl (ringOf_onDevice (completeRx data) (fun _ => rfl) d s.world)

lemma pushFrame_beside (data : Bytes) (s : Sys Driver) : Beside i s (ethRingPushFrame E (some i) data s).2 :=
  pushFrame_inv (.refl i s) (reserve_beside _ s) (fun t ht => ht.trans (push_beside _ t)) fun t ht =>
    ht.trans (push_beside data t)

lemma rx_pushFrame (h : RxRing (s.buf i)) (hn : data.length < 65536) : RxRing ((ethRingPushFrame E (some i) data s).2.buf i) :=
  pushFrame_inv (P := fun t => RxRing (t.buf i)) h (rx_reserve h (by omega)).1 (fun _ ht => (rx_push _ ht (by simp)).1) fun _ ht =>
    (rx_push data ht (by omega)).1

variable {frame : Bytes}

lemma pushFrame_len (h : RxRing (s.buf i)) (hn : frame.length < 65536)
    (hpush : ethRingPushFrame E (some i) frame s = (true, t)) :
    frame ≠ [] ∧ (t.buf i).len = (s.buf i).len + (frame.length + 2) := by
  unfold ethRingPushFrame at hpush
  dsimp only at hpush
  split_ifs at hpush with hnil
  · cases hpush
  obtain ⟨hr1, hq1⟩ := rx_reserve h (by omega : frame.length + 2 ≤ 65537)
  generalize memBufferReserve E i (frame.length + 2) s = x at hpush hr1 hq1
  obtain ⟨_ | _, u⟩ := x
  · cases hpush
  dsimp only at hpush hr1 hq1
  obtain ⟨hr2, hq2⟩ := rx_push (lenBytes frame.length) hr1 (by simp)
  generalize memBufferPush E i (lenBytes frame.length) u = y at hpush hr2 hq2
  obtain ⟨_ | _, v⟩ := y
  · cases hpush
  dsimp only at hpush hr2 hq2
  obtain ⟨-, hq3⟩ := rx_push frame hr2 (by omega)
  rw [hpush] at hq3
  rw [if_pos rfl] at hq2 hq3
  have hlen := congrArg List.length hq3
  rw [hq2, hq1, length_append, length_append, length_queue, length_queue, length_lenBytes] at hlen
  dsimp only at hlen
  exact ⟨hnil, by omega⟩

lemma push_le (data : Bytes) (hrx : RxRing (s.buf i)) (hn : data.length ≤ 65535) :
    (s.buf i).len ≤ ((memBufferPush E i data s).2.buf i).len := by
  have hq := congrArg List.length (rx_push (E := E) data hrx hn).2
  rw [length_queue] at hq
  rw [hq]
  split_ifs
  · rw [length_append, length_queue]
    exact Nat.le_add_right ..
  · rw [length_queue]

lemma pushFrame_le (hrx : RxRing (s.buf i)) (hn : frame.length < 65536) :
    (s.buf i).len ≤ ((ethRingPushFrame E (some i) frame s).2.buf i).len := by
  refine (pushFrame_inv (P := fun t => RxRing (t.buf i) ∧ (s.buf i).len ≤ (t.buf i).len) ⟨hrx, le_rfl⟩ ?_ ?_ ?_).2
  · obtain ⟨hr, hq⟩ := rx_reserve hrx (by omega : frame.length + 2 ≤ 65537)
    exact ⟨hr, by simpa using (congrArg List.length hq).ge⟩
  · exact fun t ht => ⟨(rx_push _ ht.1 (by simp)).1, ht.2.trans (push_le _ ht.1 (by simp))⟩
  · exact fun t ht => ⟨(rx_push frame ht.1 (by omega)).1, ht.2.trans (push_le frame ht.1 (by omega))⟩

/-- The reservation and the header of a frame are served. -/
lemma pushFrame_header {m : ℕ} (hrx : RxRing (s.buf i)) (hne : frame ≠ []) (hn : frame.length < 65536)
    (hready : Ready (m + 2) ((s.buf i).len + (frame.length + 2)) i s) :
    ∃ v, ethRingPushFrame E (some i) frame s = memBufferPush E i frame v ∧ RxRing (v.buf i) ∧
      (v.buf i).len = (s.buf i).len + 2 ∧ Ready m ((s.buf i).len + (frame.length + 2)) i v := by
  obtain ⟨u, hreserve, hready⟩ := hready.maybeGrow hrx.growing le_rfl
  obtain ⟨hr1, hq1⟩ := rx_reserve hrx (by omega : frame.length + 2 ≤ 65537)
  have hres : memBufferReserve E i (frame.length + 2) s = (true, u) := by
    rw [memBufferReserve, if_neg (by simp [hrx.isRing.ring])]
    exact hreserve
  have hlen1 := congrArg List.length hq1
  rw [length_queue, length_queue] at hlen1
  rw [hres] at hr1 hlen1
  dsimp only at hr1 hlen1
  obtain ⟨v, hheader, hready⟩ := Ready.push (lenBytes frame.length) hr1 hready (by simp [lenBytes]) (by
    rw [length_lenBytes]
    omega)
  obtain ⟨hr2, hq2⟩ := rx_push (lenBytes frame.length) hr1 (by simp)
  rw [hheader] at hr2 hq2
  dsimp only at hr2 hq2
  have hlen2 := congrArg List.length hq2
  rw [if_pos rfl, length_append, length_queue, length_queue, length_lenBytes] at hlen2
  refine ⟨v, ?_, hr2, by omega, hready⟩
  unfold ethRingPushFrame
  dsimp only
  rw [if_neg hne, hres]
  dsimp only
  rw [hheader]

lemma pushFrame_pos (hrx : RxRing (s.buf i)) (hne : frame ≠ []) (hn : frame.length < 65536)
    (hready : 0 < (s.buf i).len ∨ Ready 2 ((s.buf i).len + (frame.length + 2)) i s) :
    0 < ((ethRingPushFrame E (some i) frame s).2.buf i).len := by
  rcases hready with hpos | hready
  · exact lt_of_lt_of_le hpos (pushFrame_le hrx hn)
  obtain ⟨v, hpush, hr, hlen, -⟩ := pushFrame_header hrx hne hn hready
  have hle := push_le (E := E) frame hr (by omega)
  rw [hpush]
  omega

lemma pushFrame_taken (hrx : RxRing (s.buf i)) (hne : frame ≠ []) (hn : frame.length < 65536)
    (hready : Ready 3 ((s.buf i).len + (frame.length + 2)) i s) : ∃ t, ethRingPushFrame E (some i) frame s = (true, t) := by
  obtain ⟨v, hpush, hr, hlen, hready⟩ := pushFrame_header hrx hne hn hready
  obtain ⟨t, hdata, -⟩ := Ready.push frame hr hready hne (by omega)
  exact ⟨t, hpush.trans hdata⟩

lemma ncmLoop_returns (ntb : Mem) : ∀ (fuel : ℕ) (p : Place) (log : List Access) {s : Sys Driver},
    RxRing (s.buf i) → rxRingMaxSize < (s.buf i).len + 3 * fuel →
    (ncmLoop (ethRingPushFrame E (some i)) ntb fuel p log s).1.1 ≠ .running := by
  intro fuel
  induction fuel with
  | zero =>
    intro p log s hr hlt
    exact absurd hr.len_le (by have : rxRingMaxSize = 2048 := rfl; omega)
  | succ fuel ih =>
    intro p log s hr hlt
    have hkept := rx_pushFrame (E := E) hr (length_datagram_lt ntb p)
    unfold ncmLoop
    generalize hpush : ethRingPushFrame E (some i) (datagram ntb p) s = x at hkept
    obtain ⟨_ | _, t⟩ := x
    · intro h
      cases h
    · -- a frame and its header are three bytes or more
      obtain ⟨hne, hlen⟩ := pushFrame_len hr (length_datagram_lt ntb p) hpush
      have hpos := length_pos_iff.2 hne
      generalize advance ntb p = y
      obtain ⟨reads, q | _ | _⟩ := y
      · exact ih q _ hkept (by omega)
      · intro h
        cases h
      · intro h
        cases h

lemma rx_pop_any (h : RxRing (s.buf i)) (n : ℕ) : RxRing ((memBufferPop E i n s).2.buf i) := by
  rcases le_or_gt n (s.buf i).len with hle | hlt
  · exact (rx_pop h hle).1
  · have hsame : memBufferPop E i n s = ([], s) := if_pos (.inr (.inl hlt))
    rw [hsame]
    exact h

lemma Sane.pushFrame (h : Sane s) (ring : Option ℕ) (data : Bytes) (hn : data.length < 65536) :
    Sane (ethRingPushFrame (ethEnv k) ring data s).2 := by
  cases ring with
  | none => exact h
  | some i =>
    have hface : (ethRingPushFrame (ethEnv k) (some i) data s).2.world.face = s.world.face :=
      pushFrame_world (ethSetRxThrottle_keeps _) _ data rfl
    exact ⟨h.told.moves (moves_pushFrame data s), h.rings.update (ringOf_congr hface) (pushFrame_beside data s)
      fun hr => rx_pushFrame hr hn, h.pools.moves (moves_pushFrame data s) (pushFrame_beside data s)⟩

lemma Sane.pop (h : Sane s) (n : ℕ) : Sane (memBufferPop (ethEnv k) i n s).2 := by
  have hface : (memBufferPop (ethEnv k) i n s).2.world.face = s.world.face :=
    (Moves.pop n s).world (P := fun w => w.face = s.world.face) (ethSetRxThrottle_keeps _) (fun _ _ hw => hw) rfl
  exact ⟨h.told.moves (Moves.pop n s), h.rings.update (ringOf_congr hface) (pop_beside n s) fun hr => rx_pop_any hr n,
    h.pools.moves (Moves.pop n s) (pop_beside n s)⟩

lemma nextRx_throttle (d : ℕ) (w : Driver) : (nextRx d w).ethRxThrottleLevel = w.ethRxThrottleLevel := by
  unfold nextRx
  split_ifs
  · rfl
  · rfl

lemma Sane.nextRx (h : Sane s) (d : ℕ) : Sane (onWorld (nextRx d) s) :=
  h.world (nextRx_throttle d s.world) (ringOf_congr (nextRx_face d s.world))

lemma Sane.received {ok : Bool} (h : Sane s) (hr : Received (ethEnv k) d dev data s ok t) : Sane t := by
  cases hr with
  | error => exact h.world (rxError_kept d dev.type s.world).2 (ringOf_congr (rxError_face d dev.type s.world))
  | empty h0 => exact h
  | ecm htype h0 hpush =>
    have hclear : Sane (onWorld (clearRetries .ecm) s) := h.world rfl rfl
    have hp := hclear.pushFrame (k := k) dev.rxRing ((dev.completeRx data).rxBuf.read 0 (data.length % 65536))
      (by rw [Mem.length_read]; exact Nat.mod_lt _ (by decide))
    rw [hpush] at hp
    split_ifs
    · exact Sane.nextRx hp d
    · exact hp
  | ncm htype h0 hparse hr =>
    have hclear : Sane (onWorld (clearRetries .ncm) s) := h.world rfl rfl
    have hp := ncmParse_inv (fun bs u hn hu => hu.pushFrame (k := k) dev.rxRing bs hn)
      (dev.completeRx data).rxBuf ncmFuel hclear
    rw [hparse] at hp
    split_ifs
    · exact Sane.nextRx hp d
    · exact hp

lemma Sane.ringed (h : Sane s) (hd : s.world.data d = some dev) (hprs : u.prs = s.prs)
    (hworld : u.world = { s.world.onDevice d (setRing i) with drainScheduled := true })
    (hbuf : ∀ j, j ≠ s.calls → u.buf j = s.buf j) (hcalls : s.calls ≤ u.calls)
    (hpools : u.lwipPools = s.lwipPools ∧ u.lwipHeap = s.lwipHeap)
    (hring : dev.rxRing = some i ∨ i = s.calls ∧ RxRing (u.buf i) ∧ i < u.calls) : Sane u := by
  have hold : ∀ e j, s.world.ringOf e = some j → RxRing (u.buf j) ∧ j < u.calls ∧ j ≠ s.calls := by
    intro e j he
    obtain ⟨hr, hlt⟩ := h.rings.ring e j he
    exact ⟨hbuf j hlt.ne ▸ hr, hlt.trans_le hcalls, hlt.ne⟩
  -- the rings are the old ones and, for the device, the new one
  have hnew : ∀ e j, u.world.ringOf e = some j →
      s.world.ringOf e = some j ∨ e = d ∧ j = s.calls ∧ RxRing (u.buf j) ∧ j < u.calls := by
    intro e j he
    rw [hworld] at he
    change ((s.world.onDevice d (setRing i)).data e).bind rxRing = some j at he
    rcases eq_or_ne e d with rfl | hne
    · rw [onDevice_self, hd] at he
      cases he
      rcases hring with hr | hr
      · refine .inl ?_
        unfold ringOf
        rw [hd]
        exact hr
      · exact .inr ⟨rfl, hr⟩
    · rw [onDevice_other hne] at he
      exact .inl he
  have htold : Told u := h.told.congr hprs (by rw [hworld]; rfl)
  have hapart : PoolsApart u :=
    h.pools.congr hpools hcalls fun j hlt ho => (congrArg MemBuffer.owner (hbuf j hlt.ne)).trans_ne ho
  refine ⟨htold, ⟨fun e j he => ?_, fun e e' j he he' => ?_⟩, hapart⟩
  · rcases hnew e j he with hj | ⟨-, -, hr, hlt⟩
    · exact ⟨(hold e j hj).1, (hold e j hj).2.1⟩
    · exact ⟨hr, hlt⟩
  · rcases hnew e j he with hj | ⟨rfl, hj, -⟩
    · rcases hnew e' j he' with hj' | ⟨-, hj', -⟩
      · exact h.rings.distinct e e' j hj hj'
      · exact absurd hj' (hold e j hj).2.2
    · rcases hnew e' j he' with hj' | ⟨rfl, -⟩
      · exact absurd hj (hold e' j hj').2.2
      · rfl

lemma Sane.registerHook (h : Sane s) : Sane (ethRegisterPressureHook (ethEnv k) s) ∧
    (ethRegisterPressureHook (ethEnv k) s).world = { s.world with hookRegistered := true } ∧
    (ethRegisterPressureHook (ethEnv k) s).buf = s.buf ∧
    (ethRegisterPressureHook (ethEnv k) s).prs.ethLevel = s.prs.ethLevel ∧
    (ethRegisterPressureHook (ethEnv k) s).prs.ethEffective = s.prs.ethEffective ∧
    (s.world.hookRegistered = false ∨ s.prs.ethHook = true → (ethRegisterPressureHook (ethEnv k) s).prs.ethHook = true) := by
  unfold ethRegisterPressureHook
  split_ifs with hreg
  · refine ⟨h, by rw [← hreg], rfl, rfl, rfl, fun hor => hor.resolve_left (by rw [hreg]; decide)⟩
  set v : Sys Driver := { s with prs := { s.prs with ethHook := true } } with hv
  have htold : Told v := by
    refine ⟨h.told.coherent, h.told.synced, ?_, h.told.clearPct⟩
    rcases h.told.throttle with hnone | ⟨-, hthr⟩
    · exact .inl hnone
    · exact .inr ⟨rfl, hthr⟩
  obtain ⟨hn, hlevel, hpools⟩ := nudge_update htold.coherent rfl rfl rfl rfl
  have heff : (memPressureUpdateEffective (ethEnv k) v).prs.ethEffective = v.prs.ethEffective := by
    rw [hn.synced, hlevel, hpools, htold.synced]
  have hworld : (memPressureUpdateEffective (ethEnv k) v).world = s.world := by
    rw [hn.world, if_neg fun hne => hne.1 heff]
  have hbuf : (memPressureUpdateEffective (ethEnv k) v).buf = s.buf := updateEffective_buf v
  have hq := quiet_updateEffective (E := ethEnv k) 0 v
  have hsane : Sane (memPressureUpdateEffective (ethEnv k) v) :=
    ⟨htold.nudge hn, h.rings.congr (ringOf_congr hn.face) (fun d j _ => congrFun hbuf j) hq.calls.ge,
      h.pools.congr ⟨hq.lwipPools, hq.lwipHeap⟩ hq.calls.ge fun j _ ho => by rw [hbuf]; exact ho⟩
  refine ⟨hsane.world rfl rfl, ?_, hbuf, hlevel, heff, fun _ => hn.hook⟩
  change { (memPressureUpdateEffective (ethEnv k) v).world with hookRegistered := true } = _
  rw [hworld]

lemma finishInit_cases (h : Sane s) (hd : s.world.data d = some dev) :
    (∃ t, finishInit (ethEnv k) d s = (false, t) ∧ Sane t ∧ Silent s t ∧ dev.rxRing = none ∧
      ∀ j, j ≠ s.calls → t.buf j = s.buf j) ∨
    ∃ i t, finishInit (ethEnv k) d s = (true, onWorld (startDevice d) t) ∧ Sane t ∧
      t.world = { s.world.onDevice d (setRing i) with drainScheduled := true, hookRegistered := true } ∧
      t.prs.ethLevel = s.prs.ethLevel ∧ t.prs.ethEffective = s.prs.ethEffective ∧ (∀ j, j ≠ s.calls → t.buf j = s.buf j) ∧
      (s.world.hookRegistered = false ∨ s.prs.ethHook = true → t.prs.ethHook = true) := by
  have hfin := finishInit_finishes (ethEnv k) hd
  generalize finishInit (ethEnv k) d s = x at hfin ⊢
  cases hfin with
  | ringless hr hnone =>
    have hsilent := createRxRing_silent hnone
    obtain ⟨hbuf, hcalls, hpools, -⟩ := createRxRing_beside hnone
    have hapart := h.pools.congr hpools hcalls fun j hlt ho => (congrArg MemBuffer.owner (hbuf j hlt.ne)).trans_ne ho
    refine .inl ⟨_, rfl, ⟨h.told.silent hsilent, h.rings.congr ?_ (fun e j he => ?_) hcalls, hapart⟩, hsilent, hr, hbuf⟩
    · rw [hsilent.2]
    · exact hbuf j (h.rings.ring e j he).2.ne
  | @starts i u hworld hprs hbuf hcalls hpools hring =>
    obtain ⟨hst, hw, hb, hl, he, hh⟩ := (h.ringed hd hprs hworld hbuf hcalls hpools hring).registerHook
    have hreg : u.world.hookRegistered = s.world.hookRegistered := by
      rw [hworld]
      rfl
    rw [hprs] at hl he hh
    rw [hreg] at hh
    refine .inr ⟨i, _, rfl, hst, ?_, hl, he, fun j hne => ?_, hh⟩
    · rw [hw, hworld]
    · rw [hb]
      exact hbuf j hne

lemma addDevice_cases {a : Answers} {type : Subclass} (h : Sane s) (hadd : addDevice d a type s.world = some w) :
    Sane { s with world := w } ∧ w.ringOf = s.world.ringOf ∧ w.hookRegistered = s.world.hookRegistered ∧
      w.ethRxThrottleLevel = s.world.ethRxThrottleLevel ∧ (∀ e, e ≠ d → w.data e = s.world.data e) ∧
      ((∃ dev, s.world.data d = some dev ∧ w.data d = some (dev.renew type) ∧ w.netifList = s.world.netifList) ∨
        s.world.data d = none ∧ w.data d = some { type, num := ifnumAssigned s.world.ifnumsUsed } ∧
          w.netifList = d :: s.world.netifList) := by
  obtain ⟨dev, hd, rfl⟩ | ⟨hd, -, -, rfl⟩ := addDevice_exits hadd
  · have hring := ringOf_onDevice (renew type) (fun _ => rfl) d s.world
    refine ⟨h.world rfl hring, hring, rfl, rfl, fun e hne => onDevice_other hne .., .inl ⟨dev, hd, ?_, rfl⟩⟩
    rw [onDevice_self, hd]
    rfl
  · have hring : ringOf { s.world with
        netifList := d :: s.world.netifList
        data := update s.world.data d (some { type, num := ifnumAssigned s.world.ifnumsUsed })
        ifnumsUsed := s.world.ifnumsUsed ||| 1#8 <<< ifnumAssigned s.world.ifnumsUsed } = s.world.ringOf := by
      funext e
      unfold ringOf
      dsimp only
      rcases eq_or_ne e d with rfl | hne
      · rw [update_self, hd]
        rfl
      · rw [update_of_ne hne]
    exact ⟨h.world rfl hring, hring, rfl, rfl, fun e hne => update_of_ne hne .., .inr ⟨hd, update_self .., rfl⟩⟩

lemma Sane.init (h : Sane s) (d : ℕ) (a : Answers) : Sane (initEthernetUsbDevice (ethEnv k) d a s).2 := by
  obtain hsame | ⟨type, w, dev, -, hadd, hd, hinit⟩ := init_cases (ethEnv k) d a s
  · rw [hsame]
    exact h
  rw [hinit]
  obtain ⟨t, ht, hst, -⟩ | ⟨i, t, ht, hst, -⟩ := finishInit_cases (addDevice_cases h hadd).1 hd
  · rw [ht]
    exact hst
  · rw [ht]
    exact hst.world (nextRx_throttle ..) (ringOf_congr (startDevice_face d t.world))

lemma Sane.close (h : Sane s) (E : Env Driver) (d : ℕ) : Sane (closeDevice E d s) := by
  have hcloses := closeDevice_closes E d s
  generalize closeDevice E d s = t at hcloses ⊢
  cases hcloses with
  | absent hd => exact h.world rfl rfl
  | kept hd herr => exact h.world rfl (ringOf_onDevice setDown (fun _ => rfl) d s.world)
  | @removed dev _ hd herr hprs hbuf hcalls hpools hworld =>
    -- the rings of the others are left
    have hring : ∀ e j, t.world.ringOf e = some j → s.world.ringOf e = some j := by
      intro e j he
      rw [hworld] at he
      obtain ⟨dev, hdev, hr⟩ := Option.bind_eq_some_iff.1 he
      exact Option.bind_eq_some_iff.2 ⟨dev, (removed_data hdev).2, hr⟩
    have htold : Told t := h.told.congr hprs (by rw [hworld]; rfl)
    have hapart : PoolsApart t := h.pools.congr hpools hcalls.ge fun j _ ho => by rw [hbuf]; exact ho
    refine ⟨htold, ⟨fun e j he => ?_, fun e e' j he he' => ?_⟩, hapart⟩
    · rw [hbuf, hcalls]
      exact h.rings.ring e j (hring e j he)
    · exact h.rings.distinct e e' j (hring e j he) (hring e' j he')

lemma interrupt_throttle (d : ℕ) (ok : Bool) (data : Bytes) (w : Driver) :
    (interruptReceiveCallback d ok data w).ethRxThrottleLevel = w.ethRxThrottleLevel ∧
      (interruptReceiveCallback d ok data w).ringOf = w.ringOf := by
  refine interrupt_rule (P := fun v => v.ethRxThrottleLevel = w.ethRxThrottleLevel ∧ v.ringOf = w.ringOf)
    (fun f hf v hv => ?_) (fun v v' hv hdata _ hthr _ _ => ?_) ⟨rfl, rfl⟩
  · exact ⟨hv.1, (ringOf_onDevice f (fun dev => (hf dev).1) d v).trans hv.2⟩
  · have hring : v'.ringOf = v.ringOf := by
      unfold ringOf
      rw [hdata]
    exact ⟨hthr.trans hv.1, hring.trans hv.2⟩

lemma Sane.start (h : Starting s) : Sane s := by
  refine ⟨⟨fun _ => h.level, ?_, .inl ?_, h.clearPct⟩, ⟨?_, ?_⟩, h.pools⟩
  · rw [h.effective, h.level]
    exact (max_eq_left (Level.none_le _)).symm
  · rw [h.world]
  · rw [h.world]
    exact nofun
  · rw [h.world]
    exact nofun

lemma Sane.step {e : Event} (hnet : net.Aside (ethEnv k)) (h : Sane s) (hstep : step (ethEnv k) net s e = some t) : Sane t := by
  cases e with
  | connected d =>
    cases hstep
    exact h.world rfl rfl
  | enabled d a =>
    have hpresent : Sane (onWorld (present d) s) := h.world rfl rfl
    simp only [Eth.step] at hstep
    split_ifs at hstep
    · cases hstep
      exact hpresent
    · cases hstep
      exact hpresent.init d a
  | disabled d =>
    cases hstep
    exact h.close _ d
  | disconnected d =>
    cases hstep
    exact (h.close _ d).world rfl rfl
  | received d ok data =>
    obtain ⟨dev, hd, -, -, hcallback⟩ := step_received hstep
    exact (h.completed d data).received (receiveCallback_received hd hcallback)
  | interrupted d ok data =>
    obtain ⟨dev, hd, -, -, rfl⟩ := step_interrupted hstep
    obtain ⟨hthr, hring⟩ := interrupt_throttle d ok data s.world
    exact h.world hthr hring
  | transmitted ok =>
    cases hstep
    have hworld : (bulkTransmitCallback ok s.world).ethRxThrottleLevel = s.world.ethRxThrottleLevel ∧
        (bulkTransmitCallback ok s.world).ringOf = s.world.ringOf := by
      unfold bulkTransmitCallback
      split_ifs <;> exact ⟨rfl, rfl⟩
    exact h.world hworld.1 hworld.2
  | drained d =>
    simp only [Eth.step] at hstep
    split at hstep
    · cases hstep
    · split_ifs at hstep
      cases hstep
      exact drainFrame_inv (fun n u hu => hu.pop n)
        (fun u v huv hu => (elsewhere_rule (fun _ _ _ _ _ _ _ => trivial) huv hu trivial).1) hnet h
  | elsewhere op =>
    simp only [Eth.step] at hstep
    split_ifs at hstep with hok
    cases hstep
    exact h.perform hok

/-! ### The devices are not freed -/

/-- The event does not come to `pbuf_free` of a device: no NCM receive transfer fails at the limit of retries. -/
def spares (s : Sys Driver) : Event → Bool
  | .received d false _ => (s.world.data d).all fun dev => dev.type = .ecm ∨ s.world.rxRetries .ncm ≠ ethUsbMaxRetries
  | _ => true

lemma nextRx_freed (d : ℕ) (w : Driver) : (nextRx d w).deviceFreed = w.deviceFreed := by
  unfold nextRx
  split_ifs <;> rfl

lemma throttle_freed (b : Bool) (level : Level) (w : Driver) (h : w.deviceFreed = b) :
    (ethSetRxThrottle level w).deviceFreed = b := by
  unfold ethSetRxThrottle
  dsimp only
  split_ifs <;> exact h

lemma init_freed (h : Sane s) (d : ℕ) (a : Answers) :
    (initEthernetUsbDevice (ethEnv k) d a s).2.world.deviceFreed = s.world.deviceFreed := by
  obtain hsame | ⟨type, w, dev, -, hadd, hd, hinit⟩ := init_cases (ethEnv k) d a s
  · rw [hsame]
  have hw : w.deviceFreed = s.world.deviceFreed := by
    obtain ⟨-, -, rfl⟩ | ⟨-, -, -, rfl⟩ := addDevice_exits hadd <;> rfl
  rw [hinit, ← hw]
  obtain ⟨t, ht, -, hsilent, -⟩ | ⟨i, t, ht, -, hworld, -⟩ := finishInit_cases (addDevice_cases h hadd).1 hd
  · rw [ht, hsilent.2]
  · rw [ht]
    refine (nextRx_freed d _).trans ?_
    rw [hworld]
    rfl

lemma close_freed (E : Env Driver) (d : ℕ) (s : Sys Driver) : (closeDevice E d s).world.deviceFreed = s.world.deviceFreed := by
  have hcloses := closeDevice_closes E d s
  generalize closeDevice E d s = t at hcloses
  cases hcloses with
  | absent | kept => rfl
  | removed _ _ _ _ _ _ hworld =>
    rw [hworld]
    rfl

lemma Received.freed {ok : Bool} (hr : Received (ethEnv k) d dev data s ok t)
    (hok : ok = false → dev.type = .ecm ∨ s.world.rxRetries .ncm ≠ ethUsbMaxRetries) :
    t.world.deviceFreed = s.world.deviceFreed := by
  cases hr with
  | error =>
    change (rxError d dev.type s.world).deviceFreed = _
    unfold rxError
    split_ifs with hlimit
    · have htype : dev.type = .ecm := by
        rcases hok rfl with htype | hne
        · exact htype
        · cases htype : dev.type with
          | ecm => rfl
          | ncm => exact absurd (htype ▸ hlimit) hne
      rw [htype]
      exact Bool.or_false _
    · exact nextRx_freed d _
  | empty => rfl
  | ecm htype h0 hpush =>
    have hp := pushFrame_world (k := k) (throttle_freed _)
      (s := onWorld (clearRetries .ecm) s) dev.rxRing ((dev.completeRx data).rxBuf.read 0 (data.length % 65536)) rfl
    rw [hpush] at hp
    split_ifs
    · exact (nextRx_freed d _).trans hp
    · exact hp
  | ncm htype h0 hparse hr =>
    have hp := ncmParse_inv (P := fun u : Sys Driver => u.world.deviceFreed = s.world.deviceFreed)
      (fun bs u _ hu => pushFrame_world (k := k) (throttle_freed _) dev.rxRing bs hu)
      (dev.completeRx data).rxBuf ncmFuel (s := onWorld (clearRetries .ncm) s) rfl
    rw [hparse] at hp
    split_ifs
    · exact (nextRx_freed d _).trans hp
    · exact hp

lemma step_freed {e : Event} (hnet : net.Aside (ethEnv k)) (h : Sane s) (hok : spares s e = true)
    (hstep : step (ethEnv k) net s e = some t) : t.world.deviceFreed = s.world.deviceFreed := by
  cases e with
  | connected d =>
    cases hstep
    rfl
  | enabled d a =>
    have hpresent : Sane (onWorld (present d) s) := h.world rfl rfl
    simp only [Eth.step] at hstep
    split_ifs at hstep
    · cases hstep
      rfl
    · cases hstep
      exact init_freed hpresent d a
  | disabled d | disconnected d =>
    cases hstep
    exact close_freed _ d s
  | received d ok data =>
    obtain ⟨dev, hd, -, -, hcallback⟩ := step_received hstep
    refine (receiveCallback_received hd hcallback).freed fun hfail => ?_
    subst hfail
    have hspares : dev.type = .ecm ∨ s.world.rxRetries .ncm ≠ ethUsbMaxRetries := by simpa [spares, hd] using hok
    exact hspares
  | interrupted d ok data =>
    obtain ⟨dev, hd, -, -, rfl⟩ := step_interrupted hstep
    exact interrupt_rule (fun _ _ _ hw => hw)
      (fun _ _ hw _ _ _ _ hfreed => hfreed.trans hw) rfl
  | transmitted ok =>
    cases hstep
    change (bulkTransmitCallback ok s.world).deviceFreed = _
    unfold bulkTransmitCallback
    split_ifs <;> rfl
  | drained d =>
    simp only [Eth.step] at hstep
    split at hstep
    · cases hstep
    · split_ifs at hstep
      cases hstep
      exact drainFrame_world (throttle_freed _) hnet rfl
  | elsewhere op =>
    simp only [Eth.step] at hstep
    split_ifs at hstep
    cases hstep
    exact perform_world (throttle_freed _) op rfl

/-! ### The drain timer -/

lemma ringDrain_run (hnet : net.Aside (ethEnv k)) : ∀ (budget : ℕ) {s : Sys Driver},
    s.world.ringOf d = some i → d ∈ s.world.netifList → ∃ n frames t, ethRxRingDrain (ethEnv k) net i budget s = (frames, t) ∧
      run (step (ethEnv k) net) s (replicate n (.drained d)) = some t ∧ n ≤ frames.length + 1 ∧ frames.length ≤ budget ∧
      t.world.face = s.world.face := by
  intro budget
  induction budget with
  | zero => exact fun _ _ => ⟨0, [], _, rfl, rfl, Nat.zero_le _, le_rfl, rfl⟩
  | succ budget ih =>
    intro s hring hmem
    have hstep : step (ethEnv k) net s (.drained d) = some (drainFrame (ethEnv k) net i s).2 := by
      have hbind : (s.world.data d).bind rxRing = some i := hring
      simp only [Eth.step, hbind]
      exact if_pos hmem
    have hface : (drainFrame (ethEnv k) net i s).2.world.face = s.world.face :=
      drainFrame_world (ethSetRxThrottle_keeps _) hnet rfl
    unfold ethRxRingDrain
    generalize drainFrame (ethEnv k) net i s = x at hstep hface
    obtain ⟨_ | frame, t⟩ := x
    · exact ⟨1, [], t, rfl, run_cons_some.2 ⟨t, hstep, rfl⟩, le_rfl, Nat.zero_le _, hface⟩
    · have hlist : t.world.netifList = s.world.netifList := congrArg Face.netifList hface
      obtain ⟨n, frames, v, heq, hrun, hn, hframes, hrest⟩ := ih (by rw [ringOf_congr hface]; exact hring) (hlist ▸ hmem)
      exact ⟨n + 1, frame :: frames, v, by simp only [heq], run_cons_some.2 ⟨t, hstep, hrun⟩, Nat.succ_le_succ hn, Nat.succ_le_succ hframes,
        hrest.trans hface⟩

lemma drainNetifs_run (hnet : net.Aside (ethEnv k)) : ∀ (l : List ℕ) (budget : ℕ) {s : Sys Driver},
    (∀ d ∈ l, d ∈ s.world.netifList) →
    ∃ ds : List ℕ, run (step (ethEnv k) net) s (ds.map .drained) = some (drainNetifs (ethEnv k) net l budget s) ∧
      ds.length ≤ budget + l.length := by
  intro l
  induction l with
  | nil => exact fun _ _ _ => ⟨[], rfl, Nat.zero_le _⟩
  | cons d l ih =>
    intro budget s hl
    unfold drainNetifs
    split_ifs
    · exact ⟨[], rfl, Nat.zero_le _⟩
    cases hr : (s.world.data d).bind rxRing with
    | none =>
      obtain ⟨ds, hds, hlen⟩ := ih budget fun e he => hl e (mem_cons_of_mem d he)
      exact ⟨ds, hds, hlen.trans (Nat.le_succ _)⟩
    | some i =>
      obtain ⟨n, frames, t, heq, hrun, hn, hframes, hface⟩ := ringDrain_run hnet budget hr (hl d mem_cons_self)
      have hlist : t.world.netifList = s.world.netifList := congrArg Face.netifList hface
      obtain ⟨ds, hds, hlen⟩ := ih (budget - frames.length) fun e he => hlist ▸ hl e (mem_cons_of_mem d he)
      refine ⟨replicate n d ++ ds, ?_, ?_⟩
      · rw [map_append, map_replicate]
        simp only [heq]
        exact run_append.2 ⟨t, hrun, hds⟩
      · rw [length_append, length_replicate, length_cons]
        omega

/-- The drain timer is a run of turns: one for each frame, which the budget bounds, and at most one in vain for each device. -/
lemma drainTimer_run (hnet : net.Aside (ethEnv k)) (s : Sys Driver) :
    ∃ ds : List ℕ, run (step (ethEnv k) net) s (ds.map .drained) = some (ethRxDrainTimer (ethEnv k) net s) ∧
      ds.length ≤ ethDrainBudget s.world + s.world.netifList.length :=
  drainNetifs_run hnet s.world.netifList _ fun _ hd => hd

end Rules

/-! ### The driver with its timer -/

/-- What calls the driver: an event other than a turn of the drain loop, or the drain timer. -/
inductive Call where
  | event (e : Event)
  | timer

def Event.isTurn : Event → Bool
  | .drained _ => true
  | _ => false

/-- The driver at the level of its callbacks.  The timer runs from the first initialisation of a device on. -/
def call (E : Env Driver) (net : Net Driver) (s : Sys Driver) : Call → Option (Sys Driver)
  | .event e => if e.isTurn then none else step E net s e
  | .timer => if s.world.drainScheduled then some (ethRxDrainTimer E net s) else none

def Call.event? : Call → Option Event
  | .event e => some e
  | .timer => none

/-- **The drain timer is a run of turns.**  Whatever the callbacks and the timer do, the events and turns do, with the events
in the order of the calls. -/
theorem calls_are_turns (structSize : ℕ) (net : Net Driver) (hnet : net.Aside (ethEnv structSize)) (s t : Sys Driver)
    (calls : List Call) (h : run (call (ethEnv structSize) net) s calls = some t) :
    ∃ events, run (step (ethEnv structSize) net) s events = some t ∧
      events.filter (!·.isTurn) = calls.filterMap Call.event? := by
  induction calls generalizing s with
  | nil => exact ⟨[], h, rfl⟩
  | cons c calls ih =>
    obtain ⟨m, hm, hrest⟩ := run_cons_some.1 h
    obtain ⟨events, hrun, hevents⟩ := ih m hrest
    cases c with
    | event e =>
      simp only [call] at hm
      split_ifs at hm with hturn
      refine ⟨e :: events, run_cons_some.2 ⟨m, hm, hrun⟩, ?_⟩
      rw [filter_cons_of_pos (by simpa using hturn), hevents]
      rfl
    | timer =>
      simp only [call] at hm
      split_ifs at hm
      cases hm
      obtain ⟨ds, hds, -⟩ := drainTimer_run hnet s
      refine ⟨ds.map .drained ++ events, run_append.2 ⟨_, hds, hrun⟩, ?_⟩
      have hturns : (ds.map Event.drained).filter (!·.isTurn) = [] := by
        refine filter_eq_nil_iff.2 fun e he => ?_
        obtain ⟨d, -, rfl⟩ := mem_map.1 he
        exact nofun
      rw [filter_append, hturns, hevents]
      rfl

/-- The pools of lwIP and the percentage for clearing the pressure, as `lwip_init` makes them. -/
def lwipInit (s : Sys Driver) : Sys Driver :=
  memSetPressureClearPct 70 (memBufferLwipInitPools (ethEnv 48)
    [⟨64, 96, 0, {}, .lwipPool⟩, ⟨256, 48, 0, {}, .lwipPool⟩, ⟨512, 8, 0, {}, .lwipPool⟩] s).2

/-- A network that takes the memory for a frame from the pools. -/
def poolNet : Net Driver where
  pbufAlloc len s :=
    let (p, t) := memBufferCustomMalloc (ethEnv 48) (len + 16) s
    (p.map fun _ => [len], t)
  pbufFree _ s := s
  input _ s := (true, s)

lemma poolNet_aside : poolNet.Aside (ethEnv 48) :=
  ⟨fun len _ => .single ⟨.customMalloc (len + 16), rfl, rfl⟩, fun _ _ => .refl, fun _ _ => .refl⟩

theorem calls_are_turns_drained : ∃ t, run (call (ethEnv 48) poolNet) (lwipInit (boot 32768 plenty))
      [.event (.enabled 0 ecmAnswers), .event (.received 0 true [1, 2, 3]), .timer] = some t ∧
    ∃ events, run (step (ethEnv 48) poolNet) (lwipInit (boot 32768 plenty)) events = some t ∧
      events.filter (!·.isTurn) = [.enabled 0 ecmAnswers, .received 0 true [1, 2, 3]] :=
  ⟨_, rfl, calls_are_turns 48 poolNet poolNet_aside _ _
    [.event (.enabled 0 ecmAnswers), .event (.received 0 true [1, 2, 3]), .timer] rfl⟩

lemma starting_lwipInit {heap : ℕ} (h : heap = 32768 ∨ heap = 65536) : Starting (lwipInit (boot heap plenty)) := by
  rcases h with rfl | rfl <;>
  · refine ⟨rfl, rfl, rfl, rfl, by decide, fun i hi => ?_⟩
    have hpools : i ∈ [0, 3, 6] := hi.resolve_right nofun
    simp only [mem_cons, not_mem_nil, or_false] at hpools
    rcases hpools with rfl | rfl | rfl <;> exact ⟨by decide +kernel, by decide +kernel⟩

/-- **The receive rings.**  In every run in which no device is freed, each ring belongs to one device and stays within its
limit, and the driver throttles at the level of the pressure or not at all. -/
theorem rings_kept (structSize : ℕ) (net : Net Driver) (hnet : net.Aside (ethEnv structSize)) (s₀ s : Sys Driver)
    (hstart : Starting s₀) (events : List Event) (h : run (guarded spares (step (ethEnv structSize) net)) s₀ events = some s) :
    s.world.deviceFreed = false ∧
      (∀ d e i, s.world.ringOf d = some i → s.world.ringOf e = some i → d = e) ∧
      (∀ d i, s.world.ringOf d = some i → (s.buf i).owner = .ethRx ∧ (s.buf i).len ≤ (s.buf i).cap ∧ (s.buf i).cap ≤ rxRingMaxSize) ∧
      (s.world.ethRxThrottleLevel = .none ∨ s.world.ethRxThrottleLevel = s.prs.ethEffective) := by
  have hinv : Sane s ∧ s.world.deviceFreed = false := by
    refine run_inv (fun s => Sane s ∧ s.world.deviceFreed = false) ?_ ⟨.start hstart, by rw [hstart.world]⟩ h
    rintro s e t ⟨hs, hfreed⟩ hstep
    obtain ⟨hok, hstep⟩ := guarded_some.1 hstep
    exact ⟨hs.step hnet hstep, (step_freed hnet hs hok hstep).trans hfreed⟩
  obtain ⟨hsane, hfreed⟩ := hinv
  refine ⟨hfreed, hsane.rings.distinct, ?_, hsane.told.throttle.imp_right And.right⟩
  intro d i hd
  have hring := (hsane.rings.ring d i hd).1
  exact ⟨hring.owner, hring.isRing.len_le, hring.isRing.cap_le.trans_eq hring.maxCap⟩

theorem rings_kept_two : ∃ s, run (guarded spares (step (ethEnv 48) poolNet)) (lwipInit (boot 32768 plenty))
      [.enabled 0 ecmAnswers, .enabled 1 ecmAnswers, .elsewhere (.customMalloc 40), .received 1 true [1, 2, 3], .drained 1] = some s ∧
    ∀ d e i, s.world.ringOf d = some i → s.world.ringOf e = some i → d = e := by
  refine ⟨_, rfl, ?_⟩
  exact (rings_kept 48 poolNet poolNet_aside _ _ (starting_lwipInit (.inl rfl))
    [.enabled 0 ecmAnswers, .enabled 1 ecmAnswers, .elsewhere (.customMalloc 40), .received 1 true [1, 2, 3], .drained 1] rfl).2.1

end LwftpCe.Eth
