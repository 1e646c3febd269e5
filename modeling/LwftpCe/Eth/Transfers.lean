import LwftpCe.Eth.Rings

/-!
# One receive transfer at a time

`eth_set_rx_throttle` does not schedule a transfer for a device that has one, so that the hook keeps the property.  The end of
a receive callback does not look: it schedules a transfer although the hook may just have done so, from inside the push of
the frame.  That happens when the push itself takes the level from none to mild.
-/

namespace LwftpCe.Eth

open Lib Buffer List Function EthDevice Driver Level Grows Option

/-! ### The property -/

def EthDevice.Single (dev : EthDevice) : Prop := dev.rxOutstanding = if dev.rxTransferActive then 1 else 0

def Driver.AllSingle (w : Driver) : Prop := ∀ d dev, w.data d = some dev → dev.Single

section Single

variable {d : ℕ} {w : Driver} {dev : EthDevice}

lemma EthDevice.Single.resumeRx (h : dev.Single) : dev.resumeRx.Single := by
  unfold EthDevice.resumeRx
  split_ifs with hactive
  · exact h
  · unfold EthDevice.Single at h ⊢
    rw [if_neg hactive] at h
    change dev.rxOutstanding + 1 = 1
    rw [h]

lemma Driver.AllSingle.throttle (level : Level) (w : Driver) (h : w.AllSingle) : (ethSetRxThrottle level w).AllSingle := by
  unfold ethSetRxThrottle
  simp only
  split_ifs
  · intro d dev hd
    dsimp only at hd
    split_ifs at hd
    · obtain ⟨dev0, h0, rfl⟩ := map_eq_some_iff.1 hd
      exact (h d dev0 h0).resumeRx
    · exact h d dev hd
  · exact h

lemma Driver.AllSingle.onDevice {f : EthDevice → EthDevice} (h : w.AllSingle) (hf : ∀ dev, dev.Single → (f dev).Single) (d : ℕ) :
    (w.onDevice d f).AllSingle := by
  intro e dev he
  rcases onDevice_some he with hold | ⟨rfl, dev0, h0, rfl⟩
  · exact h e dev hold
  · exact hf dev0 (h e dev0 h0)

lemma Driver.AllSingle.nextRx (h : w.AllSingle) (hd : ∀ dev, w.data d = some dev → dev.rxTransferActive = false) :
    (nextRx d w).AllSingle := by
  unfold Eth.nextRx
  split_ifs
  · intro e dev he
    rcases onDevice_some he with hold | ⟨rfl, dev0, h0, rfl⟩
    · exact h e dev hold
    · have hnone := h e dev0 h0
      unfold EthDevice.Single at hnone ⊢
      rw [hd dev0 h0] at hnone
      change dev0.rxOutstanding + 1 = 1
      rw [hnone]
      rfl
  · exact h

lemma EthDevice.Single.completeRx (data : Bytes) (h : dev.Single) : (dev.completeRx data).Single := by
  change dev.rxOutstanding - 1 = 0
  rw [h]
  split_ifs
  · rfl
  · rfl

end Single

/-! ### Below the levels -/

/-- The usage stays below the level mild while `bytes` more come into the receive ring `i`. -/
structure Calm (i bytes : ℕ) (s : Sys Driver) : Prop where
  ring : RxRing (s.buf i)
  bytes : ((s.buf i).len + bytes) * 100 < 70 * rxRingMaxSize
  heap : s.cfg.maxHeap = 0 ∨ (s.cfg.heapUsed + (rxRingMaxSize - (s.buf i).cap)) * 100 < 70 * s.cfg.maxHeap

section Calm

variable {E : Env Driver} {i n bytes : ℕ} {s t : Sys Driver} {data : Bytes}

lemma pct_lt {used limit p : ℕ} (hpos : 0 < limit) (h : used * 100 < p * limit) : umul (min used limit) 100 / limit % 256 < p := by
  have h1 : umul (min used limit) 100 ≤ used * 100 :=
    (Nat.mod_le _ _).trans (Nat.mul_le_mul_right 100 (min_le_left used limit))
  have h2 : umul (min used limit) 100 / limit < p := (Nat.div_lt_iff_lt_mul hpos).2 (by omega)
  exact lt_of_le_of_lt (Nat.mod_le _ _) h2

lemma Calm.reported (h : Calm i bytes s) (hn : n ≤ bytes) : reported s i (uadd (s.buf i).len n) = .none := by
  have hbytes := h.bytes
  have hmax : (s.buf i).maxCap = rxRingMaxSize := h.ring.maxCap
  have hcap : (s.buf i).cap ≤ rxRingMaxSize := h.ring.isRing.cap_le.trans_eq hmax
  have hpos := h.ring.isRing.cap_pos
  have hsum : uadd (s.buf i).len n ≤ (s.buf i).len + bytes := (Nat.mod_le _ _).trans (Nat.add_le_add_left hn _)
  have hlimit : (if (s.buf i).maxCap ≠ sizeMax ∧ (s.buf i).maxCap > 0 then max (s.buf i).maxCap (s.buf i).cap else (s.buf i).cap) =
      rxRingMaxSize := by
    rw [hmax]
    exact max_eq_left hcap
  have hbuf : umul (min (uadd (s.buf i).len n) rxRingMaxSize) 100 / rxRingMaxSize % 256 < 70 := pct_lt (by decide) (by omega)
  have hheap : (if s.cfg.maxHeap > 0 then umul (min s.cfg.heapUsed s.cfg.maxHeap) 100 / s.cfg.maxHeap % 256 else 0) < 70 := by
    split_ifs with hmaxHeap
    · have hh := h.heap.resolve_left hmaxHeap.ne'
      exact pct_lt hmaxHeap (by omega)
    · decide
  unfold Grows.reported memBufferUsagePct memPressureLevelFromUsage
  rw [if_neg hpos.ne']
  simp only [hlimit]
  rw [if_neg (by omega), if_neg (by omega)]

lemma Calm.maybeGrow (h : Calm i bytes s) (h0 : 0 < n) (hn : n ≤ bytes) (hgrow : memBufferMaybeGrow E i n s = (true, t)) :
    Calm i bytes t := by
  have hbytes := h.bytes
  have hmax : (s.buf i).maxCap = rxRingMaxSize := h.ring.maxCap
  have hsize : rxRingMaxSize = 2048 := rfl
  have hrange : uintRange = 16777216 := rfl
  have hkept := (maybeGrow_kept (E := E) h.ring.isRing h0 (by omega)).1
  have hmoves := (Moves.refl (E := E) (i := i) (s := s)).maybeGrow n
  have hused := maybeGrow_used h.ring.growing (by rw [uadd_of_lt (by omega)]; omega) hgrow
  have hbeside := maybeGrow_beside (E := E) (Beside.refl i s) n
  rw [hgrow] at hkept hmoves hbeside
  have hlen := hkept.len
  refine ⟨h.ring.fixed hkept.isRing hmoves.fixed, by rw [hlen]; exact hbytes, ?_⟩
  rw [hbeside.maxHeap]
  exact h.heap.imp_right fun hheap => by omega

lemma push_true (hpush : memBufferPush E i data s = (true, t)) :
    data ≠ [] ∧ ∃ u, memBufferMaybeGrow E i data.length s = (true, u) ∧ t = u.onBuf i (pushBytes data) := by
  unfold memBufferPush at hpush
  split_ifs at hpush with hne
  · cases hpush
  · generalize memBufferMaybeGrow E i data.length s = x at hpush
    obtain ⟨_ | _, u⟩ := x
    · cases hpush
    · cases hpush
      exact ⟨fun hnil => hne (.inl hnil), u, rfl, rfl⟩

lemma Calm.push (h : Calm i bytes s) (hn : data.length ≤ bytes) (hpush : memBufferPush E i data s = (true, t)) :
    Calm i (bytes - data.length) t := by
  have hbytes := h.bytes
  have hsize : rxRingMaxSize = 2048 := rfl
  obtain ⟨hne, u, hgrow, rfl⟩ := push_true hpush
  obtain ⟨hring, hqueue⟩ := rx_push data h.ring (by omega)
  rw [hpush] at hring hqueue
  have hu := h.maybeGrow (length_pos_iff.2 hne) hn hgrow
  have hlen := congrArg List.length hqueue
  rw [if_pos rfl, length_append, length_queue, length_queue] at hlen
  have hset : ∃ g len, (u.onBuf i (pushBytes data)).buf i = (u.buf i).setRing g (u.buf i).head len := ⟨_, _, Sys.onBuf_self ..⟩
  obtain ⟨g, len, hset⟩ := hset
  have hcfg : (u.onBuf i (pushBytes data)).cfg = u.cfg := rfl
  dsimp only at hring hlen
  refine ⟨hring, by omega, ?_⟩
  rw [hset]
  exact hu.heap

lemma pushFrame_grows {B : Prop} (frame : Bytes) (h : B → Calm i bytes s) (hn : B → frame.length + 2 ≤ bytes) :
    Grows E i (fun l => B → .high ≤ l) s (ethRingPushFrame E (some i) frame s).2 ∧
      ((ethRingPushFrame E (some i) frame s).1 = true → B → Calm i (bytes - (frame.length + 2)) (ethRingPushFrame E (some i) frame s).2) := by
  have hc : B → high ≤ .critical := fun _ => le_critical _
  have hquiet : ∀ {u : Sys Driver} {b m : ℕ}, (B → Calm i b u) → (B → m ≤ b) →
      reported u i (uadd (u.buf i).len m) ≠ .none → B → high ≤ reported u i (uadd (u.buf i).len m) := by
    intro u b m hu hm hne hb
    exact absurd ((hu hb).reported (hm hb)) hne
  have hres := reserve (E := E) (L := fun l => B → .high ≤ l) hc (hquiet h hn)
  unfold ethRingPushFrame
  simp only
  split_ifs with hnil
  · exact ⟨.refl, False.elim⟩
  generalize hreserve : memBufferReserve E i (frame.length + 2) s = x at hres
  obtain ⟨_ | _, t⟩ := x
  · exact ⟨hres, fun h => absurd h Bool.false_ne_true⟩
  have ht : B → Calm i bytes t := by
    intro hb
    rw [memBufferReserve, if_neg (by simp [(h hb).ring.isRing.ring])] at hreserve
    exact (h hb).maybeGrow (Nat.succ_pos _) (hn hb) hreserve
  have hhdr := push (E := E) (L := fun l => B → .high ≤ l) (lenBytes frame.length) hc (hquiet ht fun hb => by
    have := hn hb
    rw [length_lenBytes]
    omega)
  dsimp only
  generalize hpush : memBufferPush E i (lenBytes frame.length) t = y at hhdr
  obtain ⟨_ | _, u⟩ := y
  · exact ⟨hres.trans hhdr, fun h => absurd h Bool.false_ne_true⟩
  have hu : B → Calm i (bytes - 2) u := by
    intro hb
    have := hn hb
    exact (ht hb).push (by rw [length_lenBytes]; omega) hpush
  have hbody := push (E := E) (L := fun l => B → .high ≤ l) frame hc (hquiet hu fun hb => by
    have := hn hb
    omega)
  dsimp only
  refine ⟨(hres.trans hhdr).trans hbody, fun haccepted hb => ?_⟩
  generalize hframe : memBufferPush E i frame u = z at haccepted
  obtain ⟨ok, v⟩ := z
  cases haccepted
  have := hn hb
  have hv := (hu hb).push (by omega) hframe
  rwa [Nat.sub_sub, Nat.add_comm 2] at hv

end Calm

/-! ### Blocks -/

def pushedBytes (ntb : Mem) : ℕ → Place → ℕ
  | 0, _ => 0
  | fuel + 1, p =>
    datagramLen ntb p + 2 +
      match (advance ntb p).2 with
      | .entry q => pushedBytes ntb fuel q
      | _ => 0

def blockBytes (ntb : Mem) : ℕ :=
  if ntb.dword 0 ≠ ncmNthSig then 0
  else
    match (enterNdp ntb (ntb.word 10)).2 with
    | .entry p => pushedBytes ntb ncmFuel p
    | _ => 0

def transferBytes (data : Bytes) (dev : EthDevice) : ℕ :=
  match dev.type with
  | .ecm => data.length % 65536 + 2
  | .ncm => blockBytes (dev.completeRx data).rxBuf

section Blocks

variable {E : Env Driver} {i : ℕ} {B : Prop}

lemma ncmLoop_grows (ntb : Mem) : ∀ (fuel : ℕ) (p : Place) (log : List Access) {s : Sys Driver},
    (B → Calm i (pushedBytes ntb fuel p) s) →
    Grows E i (fun l => B → .high ≤ l) s (ncmLoop (ethRingPushFrame E (some i)) ntb fuel p log s).2 := by
  intro fuel
  induction fuel with
  | zero =>
    intro p log s _
    exact .refl
  | succ fuel ih =>
    intro p log s h
    have hlen : (datagram ntb p).length = datagramLen ntb p := Mem.length_read ..
    obtain ⟨hgrows, hcalm⟩ := pushFrame_grows (datagram ntb p) h fun _ => by
      rw [hlen]
      exact Nat.le_add_right ..
    unfold ncmLoop
    generalize ethRingPushFrame E (some i) (datagram ntb p) s = x at hgrows hcalm
    obtain ⟨_ | _, t⟩ := x
    · exact hgrows
    · have hnext : B → Calm i (match (advance ntb p).2 with
          | .entry q => pushedBytes ntb fuel q
          | _ => 0) t := by
        intro hb
        have ht := hcalm rfl hb
        rw [hlen, pushedBytes, Nat.add_sub_cancel_left] at ht
        exact ht
      generalize advance ntb p = y at hnext
      obtain ⟨reads, q | _ | _⟩ := y
      · exact hgrows.trans (ih q _ hnext)
      · exact hgrows
      · exact hgrows

lemma ncmParse_grows (ntb : Mem) {s : Sys Driver} (h : B → Calm i (blockBytes ntb) s) :
    Grows E i (fun l => B → .high ≤ l) s (ncmParse (ethRingPushFrame E (some i)) ntb ncmFuel s).2 := by
  unfold blockBytes at h
  unfold ncmParse
  split_ifs at h ⊢
  · exact .refl
  · generalize enterNdp ntb (ntb.word 10) = y at h
    obtain ⟨reads, p | _ | _⟩ := y
    · exact ncmLoop_grows ntb ncmFuel p _ h
    · exact .refl
    · exact .refl

end Blocks

/-! ### What the hook does meanwhile -/

section Hook

variable {k i : ℕ} {s t : Sys Driver}

lemma Nudge.data (h : Told s) (hn : Nudge s t) (hup : s.prs.ethEffective < t.prs.ethEffective → .high ≤ t.prs.ethEffective)
    (hle : s.prs.ethEffective ≤ t.prs.ethEffective) : t.world.data = s.world.data := by
  rw [hn.world]
  split_ifs with hcall
  · have hlt : s.prs.ethEffective < t.prs.ethEffective := lt_of_le_of_ne hle (Ne.symm hcall.1)
    have hhigh := hup hlt
    have hprevious : s.world.ethRxThrottleLevel ≠ .critical := by
      rcases h.throttle with hnone | ⟨-, hthr⟩
      · rw [hnone]
        decide
      · rw [hthr]
        intro hcrit
        exact absurd (le_critical t.prs.ethEffective) (not_le.2 (hcrit ▸ hlt))
    have hskip : ¬ (ethShouldScheduleRx { s.world with ethRxThrottleLevel := t.prs.ethEffective } = true ∨
        s.world.ethRxThrottleLevel = .critical) := by
      rintro (hsched | hcrit)
      · unfold ethShouldScheduleRx at hsched
        dsimp only at hsched
        rcases of_decide_eq_true hsched with he | he
        · rw [he] at hhigh
          exact absurd hhigh (by decide)
        · rw [he] at hhigh
          exact absurd hhigh (by decide)
      · exact hprevious hcrit
    unfold ethSetRxThrottle
    rw [if_neg hskip]
  · rfl

lemma grows_data {B : Prop} (hg : Grows (ethEnv k) i (fun l => B → .high ≤ l) s t) (h : Told s)
    (hown : (s.buf i).owner = .ethRx) (hB : B ∨ s.prs.ethEffective ≠ .none) : t.world.data = s.world.data := by
  have hall : Told t ∧ (t.buf i).owner = .ethRx ∧ (B ∨ t.prs.ethEffective ≠ .none) ∧ t.world.data = s.world.data := by
    refine hg.inv (fun t => Told t ∧ (t.buf i).owner = .ethRx ∧ (B ∨ t.prs.ethEffective ≠ .none) ∧ t.world.data = s.world.data)
      ?_ ?_ ?_ ⟨h, hown, hB, rfl⟩
    · rintro u f ⟨hu, ho, hb, hdata⟩ hf
      refine ⟨hu.silent ⟨rfl, rfl⟩, ?_, hb, hdata⟩
      rw [Sys.onBuf_self, hf.owner]
      exact ho
    · rintro u _ _ _ ⟨hu, ho, hb, hdata⟩
      exact ⟨hu.silent ⟨rfl, rfl⟩, ho, hb, hdata⟩
    · rintro u level hl ⟨hu, ho, hb, hdata⟩
      obtain ⟨hn, hlevel, hpools⟩ := nudge_mark_ring hu ho level
      have hq := quiet_mark (E := ethEnv k) i level u
      generalize memPressureMark (ethEnv k) i level u = v at hn hlevel hpools hq
      have heff : v.prs.ethEffective = max u.prs.ethEffective level := by
        rw [hn.synced, hlevel, hpools, hu.synced, max_assoc]
      have hle : u.prs.ethEffective ≤ v.prs.ethEffective := heff ▸ le_max_left ..
      refine ⟨hu.nudge hn, hq.owner.trans ho, hb.imp_right fun hne hnone => ?_, (Nudge.data hu hn ?_ hle).trans hdata⟩
      · rw [hnone] at hle
        exact hne (le_antisymm hle (none_le _))
      · intro hlt
        rcases hb with hb | hne
        · have hv : v.prs.ethEffective = level := by
            rw [heff] at hlt ⊢
            exact max_eq_right (le_of_lt (by simpa using hlt))
          exact hv ▸ hl hb
        · by_contra hlow
          have hmild := le_mild.2 hlow
          exact hne (none_of_lt_mild (lt_of_lt_of_le hlt hmild))
  exact hall.2.2.2

end Hook

/-! ### Runs -/

/-- The usage of the ring and of the heap stays below 70 percent while the bytes of a transfer come in, and the ring grows. -/
def staysCalm (i bytes : ℕ) (s : Sys Driver) : Bool :=
  ((s.buf i).len + bytes) * 100 < 70 * rxRingMaxSize ∧
    (s.cfg.maxHeap = 0 ∨ (s.cfg.heapUsed + (rxRingMaxSize - (s.buf i).cap)) * 100 < 70 * s.cfg.maxHeap)

/-- The condition on an event: no device is freed; frames come in while there is some pressure already, or do not lead to any;
and a device that is initialised again has no transfer left from before. -/
def unstirred (s : Sys Driver) (e : Event) : Bool :=
  spares s e &&
    match e with
    | .received d true data =>
      data = [] || s.prs.ethEffective ≠ .none ||
        (s.world.data d).all fun dev => dev.rxRing.all fun i => staysCalm i (transferBytes data dev) s
    | .enabled d a =>
      a.hub || (ethernetType a s.world.ifnumsUsed).isNone || (s.world.data d).all fun dev => dev.rxOutstanding = 0
    | _ => true

section Runs

variable {k d : ℕ} {s t : Sys Driver} {ok : Bool} {data : Bytes}

lemma received_data {ring : Option ℕ} (bytes : ℕ) (h : Sane s) (hring : s.world.ringOf d = ring)
    (hok : s.prs.ethEffective ≠ .none ∨ ∀ i, ring = some i → staysCalm i bytes s = true) :
    (∀ frame : Bytes, frame.length + 2 ≤ bytes → (ethRingPushFrame (ethEnv k) ring frame s).2.world.data = s.world.data) ∧
      ∀ ntb : Mem, blockBytes ntb ≤ bytes →
        (ncmParse (ethRingPushFrame (ethEnv k) ring) ntb ncmFuel s).2.world.data = s.world.data := by
  cases ring with
  | none =>
    refine ⟨fun _ _ => rfl, fun ntb _ => ?_⟩
    exact ncmParse_inv (P := fun u : Sys Driver => u.world.data = s.world.data) (fun _ _ _ hu => hu) ntb ncmFuel rfl
  | some i =>
    obtain ⟨hrx, -⟩ := h.rings.ring d i hring
    -- the two cases of the condition, as one
    obtain ⟨B, hB, hcalm⟩ : ∃ B : Prop, (B ∨ s.prs.ethEffective ≠ .none) ∧ (B → Calm i bytes s) := by
      rcases hok with hne | hcalm
      · exact ⟨False, .inr hne, False.elim⟩
      · have := hcalm i rfl
        simp only [staysCalm, decide_eq_true_eq] at this
        exact ⟨True, .inl trivial, fun _ => ⟨hrx, this.1, this.2⟩⟩
    refine ⟨fun frame hn => ?_, fun ntb hn => ?_⟩
    · exact grows_data (pushFrame_grows frame hcalm fun _ => hn).1 h.told hrx.owner hB
    · refine grows_data (ncmParse_grows ntb fun hb => ?_) h.told hrx.owner hB
      have hc := hcalm hb
      refine ⟨hc.ring, lt_of_le_of_lt ?_ hc.bytes, hc.heap⟩
      exact Nat.mul_le_mul_right 100 (Nat.add_le_add_left hn _)

lemma received_single {dev : EthDevice} (h : Sane s) (hs : s.world.AllSingle)
    (hd : s.world.data d = some (dev.completeRx data)) (hok : ok = true → data ≠ [] → s.prs.ethEffective ≠ .none ∨
      ∀ i, dev.rxRing = some i → staysCalm i (transferBytes data dev) s = true)
    (hr : Received (ethEnv k) d dev data s ok t) : t.world.AllSingle := by
  have hidle : ∀ {w : Driver}, w.data = s.world.data → ∀ dev', w.data d = some dev' → dev'.rxTransferActive = false := by
    intro w hw dev' hd'
    rw [hw, hd] at hd'
    cases hd'
    rfl
  have hring : s.world.ringOf d = dev.rxRing := by
    unfold ringOf
    rw [hd]
    rfl
  have hend : ∀ {u : Sys Driver}, u.world.data = s.world.data → u.world.AllSingle ∧ (nextRx d u.world).AllSingle := by
    intro u hu
    have hsingle : u.world.AllSingle := by
      unfold Driver.AllSingle
      rw [hu]
      exact hs
    exact ⟨hsingle, hsingle.nextRx (hidle hu)⟩
  cases hr with
  | error =>
    change (rxError d dev.type s.world).AllSingle
    unfold rxError
    split_ifs
    · exact hs.onDevice (f := fail) (fun _ hdev => hdev) d
    · exact Driver.AllSingle.nextRx hs (hidle rfl)
  | empty h0 => exact hs
  | ecm htype h0 hpush =>
    have hdata := (received_data (k := k) (transferBytes data dev) (s := onWorld (clearRetries .ecm) s)
      (h.world rfl rfl) hring (hok rfl h0)).1 ((dev.completeRx data).rxBuf.read 0 (data.length % 65536)) (by
        rw [Mem.length_read, transferBytes, htype])
    rw [hpush] at hdata
    split_ifs
    · exact (hend hdata).2
    · exact (hend hdata).1
  | ncm htype h0 hparse hrun =>
    have hdata := (received_data (k := k) (transferBytes data dev) (s := onWorld (clearRetries .ncm) s)
      (h.world rfl rfl) hring (hok rfl h0)).2 (dev.completeRx data).rxBuf (by rw [transferBytes, htype])
    rw [hparse] at hdata
    split_ifs
    · exact (hend hdata).2
    · exact (hend hdata).1

lemma init_single {a : Answers} (h : Sane s) (hs : s.world.AllSingle)
    (hok : (ethernetType a s.world.ifnumsUsed).isSome = true → ∀ dev, s.world.data d = some dev → dev.rxOutstanding = 0) :
    (initEthernetUsbDevice (ethEnv k) d a s).2.world.AllSingle := by
  obtain hsame | ⟨type, w, dev, htype, hadd, hd, hinit⟩ := init_cases (ethEnv k) d a s
  · rw [hsame]
    exact hs
  rw [hinit]
  obtain ⟨hsane, -, -, -, hother, hdata⟩ := addDevice_cases h hadd
  -- the device has no transfer
  obtain ⟨hnone, hidle⟩ : dev.rxOutstanding = 0 ∧ dev.rxTransferActive = false := by
    rcases hdata with ⟨dev0, hold, hnew, -⟩ | ⟨-, hnew, -⟩
    · cases hd.symm.trans hnew
      exact ⟨hok (htype ▸ rfl) dev0 hold, rfl⟩
    · cases hd.symm.trans hnew
      exact ⟨rfl, rfl⟩
  have hsingle : ∀ {v : Driver} {dev' : EthDevice}, (∀ e, e ≠ d → v.data e = w.data e) → v.data d = some dev' →
      dev'.rxOutstanding = 0 → dev'.rxTransferActive = false → v.AllSingle := by
    intro v dev' hv hvd hzero hfalse e dev'' he
    rcases eq_or_ne e d with rfl | hne
    · rw [hvd] at he
      cases he
      unfold EthDevice.Single
      rw [hzero, hfalse]
      rfl
    · rw [hv e hne, hother e hne] at he
      exact hs e dev'' he
  obtain ⟨t, ht, -, hsilent, -⟩ | ⟨i, t, ht, -, hworld, -⟩ := finishInit_cases hsane hd
  · rw [ht]
    rw [hsilent.2]
    exact hsingle (fun _ _ => rfl) hd hnone hidle
  · rw [ht]
    have hdev : ((t.world.onDevice d setUp).onDevice d scheduleInt).data d =
        some (((dev.setRing i).setUp).scheduleInt) := by
      have hring : t.world.data d = some (dev.setRing i) := by
        rw [hworld]
        rw [onDevice_self, hd]
        rfl
      rw [onDevice_self, onDevice_self, hring]
      rfl
    refine Driver.AllSingle.nextRx (hsingle (fun e hne => ?_) hdev hnone hidle) fun dev' hd' => ?_
    · rw [onDevice_other hne, onDevice_other hne, hworld]
      exact onDevice_other hne ..
    · rw [hdev] at hd'
      cases hd'
      exact hidle

lemma close_single (hs : s.world.AllSingle) (E : Env Driver) : (closeDevice E d s).world.AllSingle := by
  have hcloses := closeDevice_closes E d s
  generalize closeDevice E d s = t at hcloses ⊢
  cases hcloses with
  | absent hd => exact hs
  | kept hd herr => exact hs.onDevice (f := setDown) (fun _ hdev => hdev) d
  | removed hd herr hprs hbuf hcalls hpools hworld =>
    rw [hworld]
    exact fun e dev he => hs e dev (removed_data he).2

lemma interrupt_single {w : Driver} (h : w.AllSingle) : (interruptReceiveCallback d ok data w).AllSingle := by
  refine interrupt_rule (fun f hf v hv => hv.onDevice (fun dev hdev => ?_) d) (fun v v' hv hdata _ _ _ _ => ?_) h
  · obtain ⟨-, hactive, hout, -⟩ := hf dev
    unfold EthDevice.Single
    rw [hactive, hout]
    exact hdev
  · unfold Driver.AllSingle
    rw [hdata]
    exact hv

lemma single_step {net : Net Driver} {e : Event} (hnet : net.Aside (ethEnv k)) (h : Sane s) (hs : s.world.AllSingle)
    (hok : unstirred s e = true) (hstep : step (ethEnv k) net s e = some t) : t.world.AllSingle := by
  cases e with
  | connected d =>
    cases hstep
    exact hs
  | enabled d a =>
    have hpresent : Sane (onWorld (present d) s) := h.world rfl rfl
    simp only [step] at hstep
    split_ifs at hstep with hhub
    · cases hstep
      exact hs
    · cases hstep
      refine init_single hpresent hs fun htype dev hd => ?_
      have hd' : s.world.data d = some dev := hd
      have htype' : (ethernetType a s.world.ifnumsUsed).isSome = true := htype
      simp only [unstirred, hhub, hd', Bool.and_eq_true, Bool.false_or, Bool.or_eq_true, isNone_iff_eq_none, all_some,
        decide_eq_true_eq] at hok
      exact hok.2.resolve_left (isSome_iff_ne_none.1 htype')
  | disabled _ | disconnected _ =>
    cases hstep
    exact close_single hs _
  | received d ok data =>
    obtain ⟨dev, hd, -, -, hcallback⟩ := step_received hstep
    refine received_single (h.completed d data) (hs.onDevice (fun _ hdev => hdev.completeRx data) d) ?_ ?_
      (receiveCallback_received hd hcallback)
    · change (s.world.onDevice d (completeRx data)).data d = _
      rw [onDevice_self, hd]
      rfl
    · rintro rfl h0
      simp only [unstirred, h0, hd, Bool.and_eq_true, decide_false, Bool.false_or, Bool.or_eq_true, decide_eq_true_eq,
        all_some] at hok
      refine hok.2.imp_right fun hcalm i hi => ?_
      rw [hi] at hcalm
      exact hcalm
  | interrupted d ok data =>
    obtain ⟨dev, hd, -, -, rfl⟩ := step_interrupted hstep
    exact interrupt_single hs
  | transmitted ok =>
    cases hstep
    change (bulkTransmitCallback ok s.world).AllSingle
    unfold bulkTransmitCallback
    split_ifs <;> exact hs
  | drained d =>
    simp only [step] at hstep
    split at hstep
    · cases hstep
    · split_ifs at hstep
      cases hstep
      exact drainFrame_world Driver.AllSingle.throttle hnet hs
  | elsewhere op =>
    simp only [step] at hstep
    split_ifs at hstep
    cases hstep
    exact perform_world Driver.AllSingle.throttle op hs

end Runs

/-- **At most one receive transfer per device.**  From the start of the driver on, in every run whose events are all
unstirred, a device has at most one receive transfer outstanding, and `rx_transfer_active` is set exactly when it has one. -/
theorem one_receive_transfer (structSize : ℕ) (net : Net Driver) (hnet : net.Aside (ethEnv structSize)) (s₀ s : Sys Driver)
    (hstart : Starting s₀) (events : List Event)
    (h : run (guarded unstirred (step (ethEnv structSize) net)) s₀ events = some s) :
    s.world.deviceFreed = false ∧ ∀ d dev, s.world.data d = some dev →
      dev.rxOutstanding ≤ 1 ∧ (dev.rxTransferActive = true ↔ dev.rxOutstanding = 1) := by
  have hinv : Sane s ∧ s.world.deviceFreed = false ∧ s.world.AllSingle := by
    refine run_inv (fun s => Sane s ∧ s.world.deviceFreed = false ∧ s.world.AllSingle) ?_ ⟨Sane.start hstart, ?_, ?_⟩ h
    · rintro s e t ⟨hsane, hfreed, hs⟩ hstep
      obtain ⟨hok, hstep⟩ := guarded_some.1 hstep
      have hspares : spares s e = true := (Bool.and_eq_true_iff.1 hok).1
      exact ⟨hsane.step hnet hstep, (step_freed hnet hsane hspares hstep).trans hfreed, single_step hnet hsane hs hok hstep⟩
    · rw [hstart.world]
    · rw [hstart.world]
      exact nofun
  refine ⟨hinv.2.1, fun d dev hd => ?_⟩
  have hsingle : dev.rxOutstanding = if dev.rxTransferActive then 1 else 0 := hinv.2.2 d dev hd
  rw [hsingle]
  cases dev.rxTransferActive with
  | false => decide
  | true => decide

theorem one_receive_transfer_mild : ∃ s dev, run (guarded unstirred (step (ethEnv 48) poolNet)) (lwipInit (boot 32768 plenty))
      [.enabled 0 ecmAnswers, .elsewhere (.customMalloc 40), .received 0 true (List.replicate 60 7)] = some s ∧
    s.world.data 0 = some dev ∧ s.prs.ethEffective = .mild ∧ dev.rxOutstanding ≤ 1 ∧
      (dev.rxTransferActive = true ↔ dev.rxOutstanding = 1) := by
  refine ⟨_, _, rfl, rfl, by decide +kernel, ?_⟩
  exact (one_receive_transfer 48 poolNet poolNet_aside _ _ (starting_lwipInit (.inl rfl))
    [.enabled 0 ecmAnswers, .elsewhere (.customMalloc 40), .received 0 true (replicate 60 7)] rfl).2 0 _ rfl

/-- **Two transfers into one buffer.**  A frame of 1500 bytes takes the ring from none to mild: the hook schedules a transfer
from inside the push, and the callback schedules another one. -/
theorem two_receive_transfers : (run (step (ethEnv 48) idleNet) (boot 32768 plenty)
      [.enabled 0 ecmAnswers, .received 0 true (List.replicate 1500 7)]).map
    (fun s => (s.world.data 0).map EthDevice.rxOutstanding) = some (some 2) := by
  decide +kernel

end LwftpCe.Eth
