import LwftpCe.Eth.Driver

/-!
# What reaches the driver

An operation on a buffer reaches the driver only through `eth_set_rx_throttle`.  So what that function keeps is kept by a
frame that is pushed, by a frame that is drained, and by operations on other buffers (`Elsewhere`), which is all that lwIP does
(`Net.Aside`).

`Face` is the part of the driver that the registration of devices and the default netif are about: the hook keeps it.
-/

namespace LwftpCe.Eth

open Lib Buffer List Function EthDevice Option Moves

variable {d : ℕ} {a : Answers} {type : Subclass} {w w' : Driver}

/-! ### Changing a device -/

namespace Driver

variable {d e : ℕ} {f g : EthDevice → EthDevice} {w : Driver}

@[simp] lemma onDevice_self (d : ℕ) (f : EthDevice → EthDevice) (w : Driver) : (w.onDevice d f).data d = (w.data d).map f :=
  update_self ..

lemma onDevice_other (h : e ≠ d) (f : EthDevice → EthDevice) (w : Driver) : (w.onDevice d f).data e = w.data e :=
  update_of_ne h ..

lemma onDevice_onDevice (d : ℕ) (f g : EthDevice → EthDevice) (w : Driver) :
    (w.onDevice d g).onDevice d f = w.onDevice d (f ∘ g) := by
  simp only [onDevice, update_self, update_idem, Option.map_map]

lemma onDevice_some {dev : EthDevice} (h : (w.onDevice d f).data e = some dev) :
    w.data e = some dev ∨ e = d ∧ ∃ dev0, w.data d = some dev0 ∧ dev = f dev0 := by
  rcases eq_or_ne e d with rfl | hne
  · rw [onDevice_self] at h
    obtain ⟨dev0, h0, rfl⟩ := map_eq_some_iff.1 h
    exact .inr ⟨rfl, dev0, h0, rfl⟩
  · rw [onDevice_other hne] at h
    exact .inl h

end Driver

/-! ### Frames -/

section Moves

variable {E : Env Driver} {net : Net Driver} {i : ℕ} {s t : Sys Driver} {τ : Type} {P : Sys Driver → Prop}

lemma pushFrame_inv {data : Bytes} (hs : P s) (hres : P (memBufferReserve E i (data.length + 2) s).2)
    (hhdr : ∀ t, P t → P (memBufferPush E i (lenBytes data.length) t).2) (hdata : ∀ t, P t → P (memBufferPush E i data t).2) :
    P (ethRingPushFrame E (some i) data s).2 := by
  unfold ethRingPushFrame
  simp only
  split_ifs
  · exact hs
  generalize memBufferReserve E i (data.length + 2) s = x at hres
  obtain ⟨_ | _, t⟩ := x
  · exact hres
  have hpush := hhdr t hres
  dsimp only
  generalize memBufferPush E i (lenBytes data.length) t = y at hpush
  obtain ⟨_ | _, u⟩ := y
  · exact hpush
  · exact hdata u hpush

lemma moves_pushFrame (data : Bytes) (s : Sys Driver) : Moves E i s (ethRingPushFrame E (some i) data s).2 :=
  pushFrame_inv .refl (reserve _ s) (fun t ht => ht.trans (push _ t)) fun t ht => ht.trans (push data t)

lemma length_datagram_lt (ntb : Mem) (p : Place) : (datagram ntb p).length < 65536 := by
  have h0 := (ntb (p.entry + 2)).toNat_lt
  have h1 := (ntb (p.entry + 2 + 1)).toNat_lt
  rw [datagram, Mem.length_read, datagramLen, Mem.word]
  omega

lemma ncmLoop_inv {push : Bytes → τ → Bool × τ} {P : τ → Prop}
    (hpush : ∀ data s, data.length < 65536 → P s → P (push data s).2) (ntb : Mem) :
    ∀ (fuel : ℕ) (p : Place) (log : List Access) {s : τ}, P s → P (ncmLoop push ntb fuel p log s).2 := by
  intro fuel
  induction fuel with
  | zero =>
    intro p log s hs
    exact hs
  | succ fuel ih =>
    intro p log s hs
    have hp := hpush (datagram ntb p) s (length_datagram_lt ntb p) hs
    unfold ncmLoop
    generalize push (datagram ntb p) s = x at hp
    obtain ⟨_ | _, t⟩ := x
    · exact hp
    · generalize advance ntb p = y
      obtain ⟨reads, _ | _ | _⟩ := y
      · exact ih _ _ hp
      · exact hp
      · exact hp

lemma ncmParse_inv {f : Bytes → τ → Bool × τ} {P : τ → Prop}
    (hf : ∀ data s, data.length < 65536 → P s → P (f data s).2) (ntb : Mem) (fuel : ℕ) {s : τ} (hs : P s) :
    P (ncmParse f ntb fuel s).2 := by
  unfold ncmParse
  split_ifs
  · exact hs
  · generalize enterNdp ntb (ntb.word 10) = y
    obtain ⟨reads, _ | _ | _⟩ := y
    · exact ncmLoop_inv hf ntb _ _ _ hs
    · exact hs
    · exact hs

/-! ### Operations elsewhere -/

def Elsewhere (E : Env Driver) : Sys Driver → Sys Driver → Prop :=
  Relation.ReflTransGen fun s t => ∃ op : LwipOp, leavesRings s op = true ∧ t = op.perform E s

structure Net.Aside (E : Env Driver) (net : Net Driver) : Prop where
  pbufAlloc : ∀ len s, Elsewhere E s (net.pbufAlloc len s).2
  pbufFree : ∀ chain s, Elsewhere E s (net.pbufFree chain s)
  input : ∀ frame s, Elsewhere E s (net.input frame s).2

lemma popChain_inv (hpop : ∀ n s, P s → P (memBufferPop E i n s).2) :
    ∀ (chain : List ℕ) (remaining : ℕ) {s : Sys Driver}, P s → P (popChain E i chain remaining s).2 := by
  intro chain
  induction chain with
  | nil =>
    intro remaining s hs
    exact hs
  | cons q qs ih =>
    intro remaining s hs
    unfold popChain
    split_ifs
    · exact hs
    · exact ih _ (hpop _ s hs)

lemma drainFrame_inv (hpop : ∀ n s, P s → P (memBufferPop E i n s).2)
    (helse : ∀ s t, Elsewhere E s t → P s → P t) (hnet : net.Aside E) (hs : P s) : P (drainFrame E net i s).2 := by
  unfold drainFrame
  split_ifs
  · exact hs
  generalize memBufferPeek (s.buf i) 0 2 = hdr
  cases hdr with
  | none => exact hs
  | some hdr =>
    dsimp only
    split_ifs
    · exact hs
    have halloc : P (net.pbufAlloc (lenOf hdr) s).2 := helse _ _ (hnet.pbufAlloc _ s) hs
    generalize net.pbufAlloc (lenOf hdr) s = x at halloc
    obtain ⟨_ | chain, u⟩ := x
    · exact halloc
    have hpopped : P (popChain E i chain (lenOf hdr) (memBufferPop E i 2 u).2).2 := popChain_inv hpop chain _ (hpop 2 u halloc)
    dsimp only
    generalize popChain E i chain (lenOf hdr) (memBufferPop E i 2 u).2 = y at hpopped
    obtain ⟨⟨frame, remaining⟩, v⟩ := y
    split_ifs
    · exact helse _ _ (hnet.pbufFree chain v) hpopped
    have hin : P (net.input frame v).2 := helse _ _ (hnet.input frame v) hpopped
    generalize net.input frame v = z at hin
    obtain ⟨_ | _, q⟩ := z
    · exact helse _ _ (hnet.pbufFree chain q) hin
    · exact hin

end Moves

/-! ### What the hook keeps -/

section World

variable {k : ℕ} {net : Net Driver} {i : ℕ} {s t : Sys Driver} {P : Driver → Prop} {E : Env Driver} {r : Option ℕ}

section Hook

variable (hP : ∀ level w, P w → P (ethSetRxThrottle level w))

include hP

lemma perform_world (op : LwipOp) (hs : P s.world) : P (op.perform (ethEnv k) s).world := by
  have hmoves : ∀ {i : ℕ} {s t : Sys Driver}, Moves (ethEnv k) i s t → P s.world → P t.world :=
    fun h hs => h.world hP (fun _ _ hw => hw) hs
  have hpools : ∀ (i : ℕ) (s t : Sys Driver), True → Moves (ethEnv k) i s t → Beside i s t → P s.world → P t.world :=
    fun _ _ _ _ h _ => hmoves h
  cases op with
  | buffer op =>
    cases op with
    | create initialCap maxCap lockSize flags =>
      have hsilent : Silent s (memBufferCreate (ethEnv k) initialCap maxCap lockSize flags s).2 := Silent.create rfl
      simp only [LwipOp.perform, perform]
      rw [hsilent.2]
      exact hs
    | destroy i =>
      simp only [LwipOp.perform, perform]
      rw [(Silent.destroy i s).2]
      exact hs
    | push i data => exact hmoves (push data s) hs
    | pop i len => exact hmoves (pop len s) hs
    | reserve i len => exact hmoves (reserve len s) hs
    | malloc i size => exact hmoves (poolMalloc size s) hs
    | free i ptr => exact hmoves (poolFree ptr s) hs
    | setOwner _ _ | setGrow _ _ _ | setShrink _ _ _ | setMaxSize _ _ => exact hs
  | customMalloc size => exact (customMalloc_inv hpools (fun _ _ => trivial) size hs).1
  | customCalloc count size => exact customCalloc_inv hpools (fun _ _ => trivial) count size hs
  | customFree ptr => exact customFree_inv hpools (fun _ _ => trivial) ptr hs

lemma elsewhere_world (h : Elsewhere (ethEnv k) s t)
    (hs : P s.world) : P t.world := by
  refine reflTransGen_inv (fun s => P s.world) ?_ h hs
  rintro a b ha ⟨op, -, rfl⟩
  exact perform_world hP op ha

lemma drainFrame_world (hnet : net.Aside (ethEnv k))
    (hs : P s.world) : P (drainFrame (ethEnv k) net i s).2.world :=
  drainFrame_inv (fun n s hw => (pop n s).world hP (fun _ _ hw => hw) hw)
    (fun _ _ h hw => elsewhere_world hP h hw) hnet hs

lemma pushFrame_world (ring : Option ℕ) (data : Bytes)
    (hs : P s.world) : P (ethRingPushFrame (ethEnv k) ring data s).2.world := by
  cases ring with
  | none => exact hs
  | some i => exact (moves_pushFrame data s).world hP (fun _ _ hw => hw) hs

end Hook

lemma createRxRing_silent (h : createRxRing E s = (r, t)) : Silent s t := by
  unfold createRxRing at h
  generalize hcreate : memBufferCreate E rxRingInitSize rxRingMaxSize 0 {} s = x at h
  obtain ⟨_ | i, u⟩ := x
  · cases h
    exact Silent.create hcreate
  · cases h
    exact (Silent.create hcreate).trans ⟨rfl, rfl⟩

lemma createRxRing_beside (h : createRxRing E s = (r, t)) : (∀ j, j ≠ s.calls → t.buf j = s.buf j) ∧ s.calls ≤ t.calls ∧
    (t.lwipPools = s.lwipPools ∧ t.lwipHeap = s.lwipHeap) ∧ ∀ i, r = some i → i = s.calls ∧ s.calls < t.calls := by
  unfold createRxRing at h
  generalize hcreate : memBufferCreate E rxRingInitSize rxRingMaxSize 0 {} s = x at h
  obtain ⟨hb, hnew⟩ := create_beside hcreate
  obtain ⟨_ | j, u⟩ := x
  · cases h
    exact ⟨hb.buf, hb.calls, ⟨hb.pools, hb.heap⟩, nofun⟩
  · cases h
    obtain ⟨rfl, hlt, -⟩ := hnew j rfl
    refine ⟨fun k hne => ?_, hb.calls, ⟨hb.pools, hb.heap⟩, fun i hi => ?_⟩
    · rw [Sys.onBuf_other hne]
      exact hb.buf k hne
    · cases hi
      exact ⟨rfl, hlt⟩

end World

/-! ### The face of the driver -/

structure Face where
  ifnumsUsed : BitVec 8
  netifList : List ℕ
  netifDefault : Option ℕ
  defaultNetifSet : Bool
  nullDeref : Bool
  gone : ℕ → Bool
  device : ℕ → Option (ℕ × Option ℕ × Bool)

def EthDevice.face (dev : EthDevice) : ℕ × Option ℕ × Bool := (dev.num, dev.rxRing, dev.connected)

def Driver.face (w : Driver) : Face :=
  ⟨w.ifnumsUsed, w.netifList, w.netifDefault, w.defaultNetifSet, w.nullDeref, w.gone, fun d => (w.data d).map EthDevice.face⟩

lemma Driver.onDevice_face (f : EthDevice → EthDevice) (hf : ∀ dev, (f dev).face = dev.face) (d : ℕ) (w : Driver) :
    (w.onDevice d f).face = w.face := by
  have hdev : (fun e => ((w.onDevice d f).data e).map EthDevice.face) = fun e => (w.data e).map EthDevice.face := by
    funext e
    rcases eq_or_ne e d with rfl | hne
    · rw [Driver.onDevice_self, Option.map_map]
      exact congrArg (Option.map · _) (funext hf)
    · rw [Driver.onDevice_other hne]
  unfold Driver.face
  rw [hdev]
  rfl

lemma resumeRx_face (dev : EthDevice) : dev.resumeRx.face = dev.face := by
  unfold resumeRx
  split_ifs <;> rfl

lemma ethSetRxThrottle_face (level : Level) (w : Driver) : (ethSetRxThrottle level w).face = w.face := by
  have hdev : (fun d => (if d ∈ w.netifList then (w.data d).map resumeRx else w.data d).map face) =
      fun d => (w.data d).map face := by
    funext d
    split_ifs
    · rw [Option.map_map]
      exact congrArg (Option.map · _) (funext resumeRx_face)
    · rfl
  unfold ethSetRxThrottle
  simp only
  split_ifs
  · unfold Driver.face
    rw [hdev]
  · rfl

lemma nextRx_face (d : ℕ) (w : Driver) : (nextRx d w).face = w.face := by
  unfold nextRx
  split_ifs
  · exact Driver.onDevice_face scheduleRx (fun _ => rfl) d w
  · rfl

lemma fatalError_face (d : ℕ) (w : Driver) : (fatalError d w).face = w.face :=
  Driver.onDevice_face fail (fun _ => rfl) d w

lemma rxError_face (d : ℕ) (type : Subclass) (w : Driver) : (rxError d type w).face = w.face := by
  unfold rxError
  split_ifs
  · exact fatalError_face d w
  · exact nextRx_face d _

lemma Driver.onDevice_data (d : ℕ) (f : EthDevice → EthDevice) (w : Driver) :
    (fun e => ((w.onDevice d f).data e).map EthDevice.face) =
      update (fun e => (w.data e).map EthDevice.face) d (((w.data d).map f).map EthDevice.face) := by
  funext e
  rcases eq_or_ne e d with rfl | hne
  · rw [Driver.onDevice_self, update_self]
  · rw [Driver.onDevice_other hne, update_of_ne hne]

namespace Face

variable (d : ℕ) (F : Face)

def add : Face :=
  { F with
    netifList := d :: F.netifList
    device := Function.update F.device d (some (ifnumAssigned F.ifnumsUsed, none, false))
    ifnumsUsed := F.ifnumsUsed ||| 1#8 <<< ifnumAssigned F.ifnumsUsed }

def setRing (i : ℕ) : Face :=
  { F with device := Function.update F.device d ((F.device d).map fun x => (x.1, some i, x.2.2)) }

def remove (num : ℕ) : Face :=
  { F with
    ifnumsUsed := F.ifnumsUsed &&& ~~~(1#8 <<< num)
    netifList := F.netifList.erase d
    netifDefault := if F.netifDefault = some d then none else F.netifDefault
    device := Function.update F.device d none }

def report (wValue : Bool) : Face :=
  let F := { F with device := Function.update F.device d ((F.device d).map fun x => (x.1, x.2.1, wValue)) }
  if wValue then if F.defaultNetifSet then F else { F with netifDefault := some d, defaultNetifSet := true }
  else if F.netifDefault = some d then { F with netifDefault := none, defaultNetifSet := false }
  else F

def setGone (b : Bool) : Face := { F with gone := Function.update F.gone d b }

end Face

lemma setRing_face (d i : ℕ) (w : Driver) : (w.onDevice d (setRing i)).face = w.face.setRing d i := by
  unfold Driver.face
  rw [Driver.onDevice_data]
  unfold Face.setRing
  simp only [Option.map_map]
  rfl

lemma networkConnection_face (d : ℕ) (w : Driver) (wValue : Bool) : (networkConnection d w wValue).face = w.face.report d wValue := by
  have hdev : (w.onDevice d (report wValue)).face =
      { w.face with device := update w.face.device d ((w.face.device d).map fun x => (x.1, x.2.1, wValue)) } := by
    unfold Driver.face
    rw [Driver.onDevice_data]
    simp only [Option.map_map]
    rfl
  unfold networkConnection Face.report
  rw [← hdev]
  cases wValue with
  | true =>
    simp only [if_true]
    exact (apply_ite Driver.face _ _ _).trans rfl
  | false =>
    simp only [Bool.false_eq_true, if_false]
    exact (apply_ite Driver.face _ _ _).trans rfl

lemma reports_face (d : ℕ) (reports : List Bool) (w : Driver) :
    (reports.foldl (networkConnection d) w).face = reports.foldl (fun F r => F.report d r) w.face := by
  induction reports generalizing w with
  | nil => rfl
  | cons r rs ih =>
    rw [foldl_cons, foldl_cons, ih, networkConnection_face]

lemma addDevice_exits (h : addDevice d a type w = some w') : (∃ dev, w.data d = some dev ∧ w' = w.onDevice d (renew type)) ∨
    w.data d = none ∧ a.malloc = true ∧ a.netifAdd = true ∧ w' = { w with
      netifList := d :: w.netifList
      data := update w.data d (some { type, num := ifnumAssigned w.ifnumsUsed })
      ifnumsUsed := w.ifnumsUsed ||| 1#8 <<< ifnumAssigned w.ifnumsUsed } := by
  unfold addDevice at h
  cases hd : w.data d with
  | some dev =>
    rw [hd] at h
    cases h
    exact .inl ⟨dev, rfl, rfl⟩
  | none =>
    rw [hd] at h
    split_ifs at h with hmalloc hnetif
    cases h
    exact .inr ⟨rfl, by simpa using hmalloc, by simpa using hnetif, rfl⟩

lemma addDevice_face (h : addDevice d a type w = some w') :
    w.data d ≠ none ∧ w'.face = w.face ∨ w.data d = none ∧ w'.face = w.face.add d := by
  obtain ⟨dev, hd, rfl⟩ | ⟨hd, -, -, rfl⟩ := addDevice_exits h
  · exact .inl ⟨by rw [hd]; exact nofun, Driver.onDevice_face (renew type) (fun _ => rfl) d w⟩
  · refine .inr ⟨hd, ?_⟩
    have hdata : (fun e => (update w.data d (some { type, num := ifnumAssigned w.ifnumsUsed }) e).map face) =
        update (fun e => (w.data e).map face) d (some (ifnumAssigned w.ifnumsUsed, none, false)) := by
      funext e
      rcases eq_or_ne e d with rfl | hne
      · rw [update_self, update_self]
        rfl
      · rw [update_of_ne hne, update_of_ne hne]
    unfold Driver.face
    rw [hdata]
    rfl

/-! ### Registration and removal -/

section Step

variable {k d : ℕ} {net : Net Driver} {a : Answers} {s t : Sys Driver}
  {E : Env Driver} {dev : EthDevice} {ok : Bool} {data : Bytes} {w : Driver}

/-- The exits of `init_ethernet_usb_device` behind the device data: there is no ring for the device, or it is started. -/
inductive Finishes (E : Env Driver) (d : ℕ) (dev : EthDevice) (s : Sys Driver) : Bool × Sys Driver → Prop
  | ringless {t : Sys Driver} (hr : dev.rxRing = none) (hnone : createRxRing E s = (none, t)) : Finishes E d dev s (false, t)
  | starts {i : ℕ} {u : Sys Driver} (hworld : u.world = { s.world.onDevice d (EthDevice.setRing i) with drainScheduled := true })
      (hprs : u.prs = s.prs) (hbuf : ∀ j, j ≠ s.calls → u.buf j = s.buf j) (hcalls : s.calls ≤ u.calls)
      (hpools : u.lwipPools = s.lwipPools ∧ u.lwipHeap = s.lwipHeap)
      (hring : dev.rxRing = some i ∨ i = s.calls ∧ RxRing (u.buf i) ∧ i < u.calls) :
      Finishes E d dev s (true, onWorld (startDevice d) (ethRegisterPressureHook E u))

lemma finishInit_finishes (E : Env Driver) (hd : s.world.data d = some dev) : Finishes E d dev s (finishInit E d s) := by
  unfold finishInit provideRing
  rw [hd]
  dsimp only [bind_some]
  cases hr : dev.rxRing with
  | some i =>
    have hself : s.world.onDevice d (setRing i) = s.world := by
      have hdev : (some dev).map (setRing i) = s.world.data d := by
        rw [hd, map_some, setRing, ← hr]
      unfold Driver.onDevice
      rw [hd, hdev, update_eq_self]
    refine .starts ?_ rfl (fun _ _ => rfl) le_rfl ⟨rfl, rfl⟩ (.inl hr)
    rw [hself]
    rfl
  | none =>
    generalize hcreate : createRxRing E s = x
    obtain ⟨_ | i, t⟩ := x
    · exact .ringless hr hcreate
    · have hsilent := createRxRing_silent hcreate
      obtain ⟨hbuf, hcalls, hpools, hnew⟩ := createRxRing_beside hcreate
      obtain ⟨rfl, hlt⟩ := hnew i rfl
      refine .starts ?_ hsilent.1 hbuf hcalls hpools (.inr ⟨rfl, (createRxRing_rxRing hcreate).1, hlt⟩)
      change { t.world.onDevice d (setRing s.calls) with drainScheduled := true } = _
      rw [hsilent.2]

lemma init_cases (E : Env Driver) (d : ℕ) (a : Answers) (s : Sys Driver) : initEthernetUsbDevice E d a s = (false, s) ∨
    ∃ type w dev, ethernetType a s.world.ifnumsUsed = some type ∧ addDevice d a type s.world = some w ∧ w.data d = some dev ∧
      initEthernetUsbDevice E d a s = finishInit E d { s with world := w } := by
  unfold initEthernetUsbDevice
  cases hadd : (ethernetType a s.world.ifnumsUsed).bind fun type => addDevice d a type s.world with
  | none => exact .inl rfl
  | some w =>
    obtain ⟨type, htype, hadd⟩ := bind_eq_some_iff.1 hadd
    obtain ⟨dev, hd⟩ : ∃ dev, w.data d = some dev := by
      obtain ⟨dev, hd, rfl⟩ | ⟨-, -, -, rfl⟩ := addDevice_exits hadd
      · exact ⟨_, (Driver.onDevice_self ..).trans (congrArg _ hd)⟩
      · exact ⟨_, update_self ..⟩
    exact .inr ⟨type, w, dev, htype, hadd, hd, rfl⟩

lemma ethSetRxThrottle_keeps (F : Face) (level : Level) (w : Driver) (h : w.face = F) : (ethSetRxThrottle level w).face = F :=
  (ethSetRxThrottle_face level w).trans h

lemma registerHook_face (s : Sys Driver) : (ethRegisterPressureHook (ethEnv k) s).world.face = s.world.face := by
  unfold ethRegisterPressureHook
  split_ifs
  · rfl
  · exact updateEffective_world (E := ethEnv k)
      (ethSetRxThrottle_keeps _) (fun _ _ hw => hw) rfl

lemma startDevice_face (d : ℕ) (w : Driver) : (startDevice d w).face = w.face := by
  unfold startDevice
  rw [nextRx_face, Driver.onDevice_face scheduleInt (fun _ => rfl), Driver.onDevice_face setUp (fun _ => rfl)]

lemma ethernetType_free {u : BitVec 8} {type : Subclass} (h : ethernetType a u = some type) : u ≠ 0xFF := by
  rintro rfl
  unfold ethernetType findEthernet at h
  cases h

/-- What `init_ethernet_usb_device` can do: nothing, a device without a ring, a device with a ring, or only a ring. -/
inductive Enrolled (d : ℕ) (F : Face) : Face → Prop
  | same : Enrolled d F F
  | ring (i : ℕ) (hd : F.device d ≠ none) : Enrolled d F (F.setRing d i)
  | add (hd : F.device d = none) (hfree : F.ifnumsUsed ≠ 0xFF) : Enrolled d F (F.add d)
  | addRing (i : ℕ) (hd : F.device d = none) (hfree : F.ifnumsUsed ≠ 0xFF) : Enrolled d F ((F.add d).setRing d i)

lemma device_face (d : ℕ) (w : Driver) : w.face.device d = none ↔ w.data d = none := map_eq_none_iff

lemma finishInit_face (k : ℕ) (hd : s.world.data d = some dev) :
    (finishInit (ethEnv k) d s).2.world.face = s.world.face ∨
      ∃ i, (finishInit (ethEnv k) d s).2.world.face = s.world.face.setRing d i := by
  have hfin := finishInit_finishes (ethEnv k) hd
  generalize finishInit (ethEnv k) d s = x at hfin ⊢
  cases hfin with
  | ringless hr hnone => exact .inl (congrArg Driver.face (createRxRing_silent hnone).2)
  | @starts i u hworld hprs hbuf hcalls hpools hring =>
    refine .inr ⟨i, (startDevice_face d _).trans ((registerHook_face _).trans ?_)⟩
    rw [hworld]
    exact setRing_face d i s.world

lemma init_face (d : ℕ) (a : Answers) (s : Sys Driver) :
    Enrolled d s.world.face (initEthernetUsbDevice (ethEnv k) d a s).2.world.face := by
  obtain hsame | ⟨type, w, dev, htype, hadd, hdev, hinit⟩ := init_cases (ethEnv k) d a s
  · rw [hsame]
    exact .same
  rw [hinit]
  rcases addDevice_face hadd with ⟨hd, hw⟩ | ⟨hd, hw⟩
  · rcases finishInit_face k (s := { s with world := w }) hdev with h | ⟨i, h⟩
    · rw [h, hw]
      exact .same
    · rw [h, hw]
      exact .ring i fun hnone => hd ((device_face d s.world).1 hnone)
  · have hnone : s.world.face.device d = none := (device_face d s.world).2 hd
    rcases finishInit_face k (s := { s with world := w }) hdev with h | ⟨i, h⟩
    · rw [h, hw]
      exact .add hnone (ethernetType_free htype)
    · rw [h, hw]
      exact .addRing i hnone (ethernetType_free htype)

inductive Closed (d : ℕ) (w : Driver) : Face → Prop
  | null (hd : w.data d = none) : Closed d w { w.face with nullDeref := true }
  | reset {dev : EthDevice} (hd : w.data d = some dev) (herr : w.ethDisabledWithError = true) : Closed d w w.face
  | removed {dev : EthDevice} (hd : w.data d = some dev) (herr : w.ethDisabledWithError = false) :
      Closed d w (w.face.remove d dev.num)

inductive Closes (d : ℕ) (s : Sys Driver) : Sys Driver → Prop
  | absent (hd : s.world.data d = none) :
      Closes d s (onWorld (fun w => { w with nullDeref := true, ethDisabledWithError := false }) s)
  | kept {dev : EthDevice} (hd : s.world.data d = some dev) (herr : s.world.ethDisabledWithError = true) :
      Closes d s (onWorld (fun w => { w.onDevice d EthDevice.setDown with ethDisabledWithError := false }) s)
  | removed {dev : EthDevice} {t : Sys Driver} (hd : s.world.data d = some dev) (herr : s.world.ethDisabledWithError = false)
      (hprs : t.prs = s.prs) (hbuf : t.buf = s.buf) (hcalls : t.calls = s.calls)
      (hpools : t.lwipPools = s.lwipPools ∧ t.lwipHeap = s.lwipHeap)
      (hworld : t.world = { netifRemove d { s.world with ifnumsUsed := s.world.ifnumsUsed &&& ~~~(1#8 <<< dev.num) } with
        data := Function.update s.world.data d none }) : Closes d s t

lemma closeDevice_closes (E : Env Driver) (d : ℕ) (s : Sys Driver) : Closes d s (closeDevice E d s) := by
  unfold closeDevice
  cases hd : s.world.data d with
  | none => exact .absent hd
  | some dev =>
    dsimp only
    split_ifs with herr
    · exact .kept hd herr
    have hremoved : ∀ {u v : Sys Driver}, u = onWorld (fun w => netifRemove d { w with
          ifnumsUsed := w.ifnumsUsed &&& ~~~(1#8 <<< dev.num) }) (onWorld (Driver.onDevice d setDown) s) →
        Silent u v → v.buf = u.buf → v.calls = u.calls → v.lwipPools = u.lwipPools ∧ v.lwipHeap = u.lwipHeap →
        Closes d s (onWorld (fun w => { w with data := update w.data d none }) v) := by
      rintro u v rfl hsilent hbuf hcalls hpools
      refine .removed hd (Bool.eq_false_iff.2 herr) hsilent.1 hbuf hcalls hpools ?_
      unfold onWorld
      rw [hsilent.2, show update s.world.data d none =
        update (s.world.onDevice d setDown).data d none from (update_idem ..).symm]
      rfl
    unfold removeDevice
    cases dev.rxRing with
    | none => exact hremoved rfl (.refl _) rfl rfl ⟨rfl, rfl⟩
    | some i =>
      have hb := fun u => destroy_beside (E := E) (Beside.refl i (u : Sys Driver))
      exact hremoved rfl (.destroy i _) (destroy_rest i _).1 (destroy_rest i _).2.2 ⟨(hb _).pools, (hb _).heap⟩

lemma removed_data {e : ℕ} (h : update w.data d none e = some dev) : e ≠ d ∧ w.data e = some dev := by
  rcases eq_or_ne e d with rfl | hne
  · rw [update_self] at h
    cases h
  · rw [update_of_ne hne] at h
    exact ⟨hne, h⟩

lemma closeDevice_face (E : Env Driver) (d : ℕ) (s : Sys Driver) : Closed d s.world (closeDevice E d s).world.face := by
  have hcloses := closeDevice_closes E d s
  generalize closeDevice E d s = t at hcloses ⊢
  cases hcloses with
  | absent hd => exact .null hd
  | kept hd herr =>
    have hface : (onWorld (fun w => { w.onDevice d setDown with ethDisabledWithError := false }) s).world.face =
        s.world.face := Driver.onDevice_face setDown (fun _ => rfl) d s.world
    rw [hface]
    exact .reset hd herr
  | @removed dev _ hd herr hprs hbuf hcalls hpools hworld =>
    have hdata : (fun e => (update s.world.data d none e).map face) =
        update (fun e => (s.world.data e).map face) d none := by
      funext e
      rcases eq_or_ne e d with rfl | hne
      · rw [update_self, update_self]
        rfl
      · rw [update_of_ne hne, update_of_ne hne]
    have hface : t.world.face = s.world.face.remove d dev.num := by
      rw [hworld]
      unfold Driver.face
      rw [hdata]
      rfl
    rw [hface]
    exact .removed hd herr

lemma interrupt_rule {P : Driver → Prop} {ok : Bool} {data : Bytes}
    (hdev : ∀ f : EthDevice → EthDevice, (∀ dev, (f dev).rxRing = dev.rxRing ∧ (f dev).rxTransferActive = dev.rxTransferActive ∧
      (f dev).rxOutstanding = dev.rxOutstanding ∧ ((f dev).failed = false → dev.failed = false)) → ∀ w, P w → P (w.onDevice d f))
    (hrest : ∀ w w' : Driver, P w → w'.data = w.data → w'.netifList = w.netifList →
      w'.ethRxThrottleLevel = w.ethRxThrottleLevel → w'.hookRegistered = w.hookRegistered →
      w'.deviceFreed = w.deviceFreed → P w') (h : P w) : P (interruptReceiveCallback d ok data w) := by
  have hreports : ∀ (l : List Bool) v, P v → P (l.foldl (networkConnection d) v) := by
    intro l
    induction l with
    | nil => exact fun _ hv => hv
    | cons r l ih =>
      intro v hv
      have hr := hdev (report r) (fun _ => ⟨rfl, rfl, rfl, id⟩) v hv
      refine ih _ ?_
      unfold networkConnection
      dsimp only
      split_ifs
      · exact hr
      · exact hrest _ _ hr rfl rfl rfl rfl rfl
      · exact hrest _ _ hr rfl rfl rfl rfl rfl
      · exact hr
  have hcomplete := hdev (completeInt data) (fun _ => ⟨rfl, rfl, rfl, id⟩) w h
  have hschedule := hdev scheduleInt fun _ => ⟨rfl, rfl, rfl, id⟩
  unfold interruptReceiveCallback
  dsimp only
  split_ifs
  · exact hrest _ _ (hdev fail (fun _ => ⟨rfl, rfl, rfl, nofun⟩) _ hcomplete) rfl rfl rfl rfl rfl
  · exact hschedule _ (hrest _ _ hcomplete rfl rfl rfl rfl rfl)
  · exact hschedule _ hcomplete
  · exact hschedule _ (hrest _ _ (hreports _ _ hcomplete) rfl rfl rfl rfl rfl)

def reportsOf (d : ℕ) (data : Bytes) (w : Driver) : List Bool :=
  (w.data d).elim [] fun dev => reportsIn data.length (dev.completeInt data)

lemma interrupt_face (d : ℕ) (ok : Bool) (data : Bytes) (w : Driver) : (interruptReceiveCallback d ok data w).face =
      if ok = true ∧ data ≠ [] then (reportsOf d data w).foldl (fun F r => F.report d r) w.face else w.face := by
  have hcomplete := Driver.onDevice_face (completeInt data) (fun _ => rfl) d w
  have hint := fun w => Driver.onDevice_face scheduleInt (fun _ => rfl) d w
  have hreports : ((w.onDevice d (completeInt data)).data d).elim [] (reportsIn data.length) = reportsOf d data w := by
    rw [Driver.onDevice_self, reportsOf]
    cases w.data d <;> rfl
  unfold interruptReceiveCallback
  cases ok with
  | false =>
    simp only [if_true, Bool.false_eq_true, false_and, if_false]
    split_ifs
    · exact (fatalError_face d _).trans hcomplete
    · exact (hint _).trans hcomplete
  | true =>
    simp only [Bool.true_eq_false, if_false, true_and]
    by_cases hdata : data = []
    · rw [if_pos hdata, if_neg (not_not.2 hdata)]
      exact (hint _).trans hcomplete
    · rw [if_neg hdata, if_pos hdata, hreports, ← hcomplete, ← reports_face]
      exact hint _

inductive Received (E : Env Driver) (d : ℕ) (dev : EthDevice) (data : Bytes) (u : Sys Driver) : Bool → Sys Driver → Prop
  | error : Received E d dev data u false (onWorld (rxError d dev.type) u)
  | empty (h0 : data = []) : Received E d dev data u true u
  | ecm {accepted : Bool} {v : Sys Driver} (htype : dev.type = .ecm) (h0 : data ≠ [])
      (hpush : ethRingPushFrame E dev.rxRing ((dev.completeRx data).rxBuf.read 0 (data.length % 65536))
        (onWorld (clearRetries .ecm) u) = (accepted, v)) :
      Received E d dev data u true (if accepted then onWorld (nextRx d) v else v)
  | ncm {r : Parsed} {log : List Access} {v : Sys Driver} (htype : dev.type = .ncm) (h0 : data ≠ [])
      (hparse : ncmParse (ethRingPushFrame E dev.rxRing) (dev.completeRx data).rxBuf ncmFuel (onWorld (clearRetries .ncm) u) =
        ((r, log), v)) (hr : r ≠ .running) :
      Received E d dev data u true (if r = .parsed then onWorld (nextRx d) v else v)

lemma receiveCallback_received (hd : s.world.data d = some dev) (h : receiveCallback E d ok data s = some t) :
    Received E d dev data (onWorld (Driver.onDevice d (completeRx data)) s) ok t := by
  have hcomplete : (onWorld (Driver.onDevice d (completeRx data)) s).world.data d = some (dev.completeRx data) :=
    (Driver.onDevice_self d _ s.world).trans (congrArg (Option.map (completeRx data)) hd)
  unfold receiveCallback at h
  dsimp only at h
  rw [hcomplete] at h
  have htype : (dev.completeRx data).type = dev.type := rfl
  generalize onWorld (Driver.onDevice d (completeRx data)) s = u at h
  dsimp only at h
  rw [htype] at h
  cases hsub : dev.type with
  | ecm =>
    rw [hsub] at h
    cases h
    unfold ecmReceiveCallback
    cases ok with
    | false =>
      rw [← hsub]
      exact .error
    | true =>
      simp only [Bool.true_eq_false, if_false, length_eq_zero_iff]
      split_ifs with h0
      · exact .empty h0
      · generalize hpush : ethRingPushFrame E (dev.completeRx data).rxRing ((dev.completeRx data).rxBuf.read 0 (data.length % 65536))
          (onWorld (clearRetries .ecm) u) = x
        obtain ⟨_ | _, v⟩ := x
        · exact .ecm hsub h0 hpush
        · exact .ecm hsub h0 hpush
  | ncm =>
    rw [hsub] at h
    unfold ncmReceiveCallback at h
    cases ok with
    | false =>
      cases h
      rw [← hsub]
      exact .error
    | true =>
      simp only [Bool.true_eq_false, if_false, length_eq_zero_iff] at h
      split_ifs at h with h0
      · cases h
        exact .empty h0
      · generalize hparse : ncmParse (ethRingPushFrame E (dev.completeRx data).rxRing) (dev.completeRx data).rxBuf ncmFuel
          (onWorld (clearRetries .ncm) u) = x at h
        obtain ⟨⟨_ | _ | _, log⟩, v⟩ := x
        · cases h
        · cases h
          exact .ncm hsub h0 hparse nofun
        · cases h
          exact .ncm hsub h0 hparse nofun

lemma receiveCallback_error (hd : s.world.data d = some dev) (h : receiveCallback E d false data s = some t) :
    t = onWorld (fun w => rxError d dev.type (w.onDevice d (completeRx data))) s := by
  cases receiveCallback_received hd h with
  | error => rfl

lemma step_received (h : step E net s (.received d ok data) = some t) :
    ∃ dev, s.world.data d = some dev ∧ 0 < dev.rxOutstanding ∧ data.length ≤ dev.type.rxSize ∧
      receiveCallback E d ok data s = some t := by
  simp only [step] at h
  cases hd : s.world.data d with
  | none =>
    rw [hd] at h
    cases h
  | some dev =>
    rw [hd] at h
    dsimp only at h
    split_ifs at h with hout
    exact ⟨dev, rfl, hout.1, hout.2, h⟩

lemma step_interrupted (h : step E net s (.interrupted d ok data) = some t) :
    ∃ dev, s.world.data d = some dev ∧ 0 < dev.intOutstanding ∧ data.length ≤ interruptRxMax ∧
      t = onWorld (interruptReceiveCallback d ok data) s := by
  simp only [step] at h
  cases hd : s.world.data d with
  | none =>
    rw [hd] at h
    cases h
  | some dev =>
    rw [hd] at h
    dsimp only at h
    split_ifs at h with hout
    cases h
    exact ⟨dev, rfl, hout.1, hout.2, rfl⟩

lemma receiveCallback_face (hd : s.world.data d = some dev)
    (h : receiveCallback (ethEnv k) d ok data s = some t) : t.world.face = s.world.face := by
  have hcomplete := Driver.onDevice_face (completeRx data) (fun _ => rfl) d s.world
  -- what the hook keeps, the pushes keep
  have hpush : ∀ (ring : Option ℕ) (bs : Bytes) (u : Sys Driver), u.world.face = s.world.face →
      (ethRingPushFrame (ethEnv k) ring bs u).2.world.face = s.world.face := by
    intro ring bs u hu
    exact pushFrame_world (ethSetRxThrottle_keeps _) ring bs hu
  have hres := receiveCallback_received hd h
  generalize hu : onWorld (Driver.onDevice d (completeRx data)) s = u at hres
  have hface : u.world.face = s.world.face := by
    rw [← hu]
    exact hcomplete
  cases hres with
  | error => exact (rxError_face d dev.type _).trans hface
  | empty h0 => exact hface
  | ecm htype h0 heq =>
    have hp := hpush dev.rxRing ((dev.completeRx data).rxBuf.read 0 (data.length % 65536)) (onWorld (clearRetries .ecm) u) hface
    rw [heq] at hp
    split_ifs
    · exact (nextRx_face d _).trans hp
    · exact hp
  | ncm htype h0 heq hr =>
    have hp := ncmParse_inv
      (fun bs u _ hu => hpush dev.rxRing bs u hu) (dev.completeRx data).rxBuf ncmFuel
      (s := onWorld (clearRetries .ncm) u) hface
    rw [heq] at hp
    split_ifs
    · exact (nextRx_face d _).trans hp
    · exact hp

inductive FaceStep (w : Driver) : Event → Face → Prop
  | connected (d : ℕ) : FaceStep w (.connected d) (w.face.setGone d false)
  | enabled (d : ℕ) (a : Answers) {F : Face} (h : Enrolled d (w.face.setGone d false) F) : FaceStep w (.enabled d a) F
  | disabled (d : ℕ) {F : Face} (h : Closed d w F) : FaceStep w (.disabled d) F
  | disconnected (d : ℕ) {F : Face} (h : Closed d w F) : FaceStep w (.disconnected d) (F.setGone d true)
  | reports (d : ℕ) (data : Bytes) :
      FaceStep w (.interrupted d true data) ((reportsOf d data w).foldl (fun F r => F.report d r) w.face)
  | same (e : Event) : FaceStep w e w.face

lemma step_face (hnet : net.Aside (ethEnv k)) {e : Event} (h : step (ethEnv k) net s e = some t) :
    FaceStep s.world e t.world.face := by
  have hhook := ethSetRxThrottle_keeps s.world.face
  cases e with
  | connected d =>
    cases h
    exact .connected d
  | enabled d a =>
    simp only [step] at h
    split_ifs at h
    · cases h
      exact .enabled d a .same
    · cases h
      exact .enabled d a (init_face d a (onWorld (present d) s))
  | disabled d =>
    cases h
    exact .disabled d (closeDevice_face _ d s)
  | disconnected d =>
    cases h
    exact .disconnected d (closeDevice_face _ d s)
  | received d ok data =>
    obtain ⟨dev, hd, -, -, hcallback⟩ := step_received h
    rw [receiveCallback_face hd hcallback]
    exact .same _
  | interrupted d ok data =>
    obtain ⟨dev, hd, -, -, rfl⟩ := step_interrupted h
    have hface := interrupt_face d ok data s.world
    change FaceStep s.world _ (interruptReceiveCallback d ok data s.world).face
    rw [hface]
    split_ifs with hok
    · rw [hok.1]
      exact .reports d data
    · exact .same _
  | transmitted ok =>
    cases h
    have hface : (onWorld (bulkTransmitCallback ok) s).world.face = s.world.face := by
      change (bulkTransmitCallback ok s.world).face = _
      unfold bulkTransmitCallback
      split_ifs <;> rfl
    rw [hface]
    exact .same _
  | drained d =>
    simp only [step] at h
    split at h
    · cases h
    · split_ifs at h
      cases h
      rw [drainFrame_world hhook hnet rfl]
      exact .same _
  | elsewhere op =>
    simp only [step] at h
    split_ifs at h
    cases h
    rw [perform_world hhook op rfl]
    exact .same _

end Step

end LwftpCe.Eth
