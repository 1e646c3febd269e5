import LwftpCe.Buffer.Accounts
import LwftpCe.Buffer.Clients
import LwftpCe.Buffer.Levels

/-!
# What the throttle hooks are told

The module with two hooks that write down the level that they are called with.  A registered hook knows its effective level
(`Heard`), and every operation on buffers keeps that (`Attuned`).  A registration keeps it while nothing is under pressure:
`hooks_in_step`.
-/

namespace LwftpCe.Buffer

open Lib List

/-- The level last delivered to each of the hooks, `none` before the first. -/
structure Delivered where
  eth : Level := .none
  tls : Level := .none

def hookEnv (structSize : ℕ) : Env Delivered where
  structSize
  ethRxThrottle level w := { w with eth := level }
  tlsRxThrottle level w := { w with tls := level }

variable {k i : ℕ} {s t : Sys Delivered} {op : ModuleOp}

def Heard (p : Pressure) (w : Delivered) : Prop :=
  (p.ethHook = true → w.eth = p.ethEffective) ∧ (p.tlsHook = true → w.tls = p.tlsEffective)

lemma updateEffective_heard (hh : Heard s.prs s.world) :
    Heard (memPressureUpdateEffective (hookEnv k) s).prs (memPressureUpdateEffective (hookEnv k) s).world := by
  have heth : Heard (updateEthEffective (hookEnv k) s).prs (updateEthEffective (hookEnv k) s).world := by
    unfold updateEthEffective
    dsimp only
    split_ifs with hne hhook
    · exact ⟨fun _ => rfl, hh.2⟩
    · exact ⟨fun h => absurd h hhook, hh.2⟩
    · exact hh
  unfold memPressureUpdateEffective
  unfold updateTlsEffective
  dsimp only
  split_ifs with hne hhook
  · exact ⟨heth.1, fun _ => rfl⟩
  · exact ⟨heth.1, fun h => absurd h hhook⟩
  · exact heth

/-! ### The operations -/

structure Attuned (s : Sys Delivered) : Prop where
  settled : Settled s.prs
  heard : Heard s.prs s.world

namespace Attuned

lemma silent (h : Attuned s) (hst : Silent s t) : Attuned t := by
  refine ⟨h.settled.silent hst, ?_⟩
  rw [hst.1, hst.2]
  exact h.heard

lemma mark (h : Attuned s) (level : Level) : Attuned (memPressureMark (hookEnv k) i level s) := by
  refine ⟨h.settled.mark level, ?_⟩
  by_cases hl : level = .none
  · rw [memPressureMark, if_pos hl]
    exact h.heard
  · rw [mark_eq hl]
    refine updateEffective_heard ?_
    cases hown : (s.buf i).owner <;> exact h.heard

lemma clear (h : Attuned s) : Attuned (memPressureMaybeClear (hookEnv k) i s) := by
  refine ⟨h.settled.clear, ?_⟩
  by_cases hpct : s.prs.clearPct ≤ 100
  · rw [maybeClear_eq hpct]
    cases hown : (s.buf i).owner with
    | lwipPool | ethRx | tlsRx => exact updateEffective_heard h.heard
    | unknown | ethTx | tlsTx => exact h.heard
  · rw [memPressureMaybeClear, if_pos (not_le.1 hpct)]
    exact h.heard

lemma moves (h : Attuned s) (hm : Moves (hookEnv k) i s t) : Attuned t :=
  hm.inv Attuned (fun _ _ ht _ => ⟨ht.settled, ht.heard⟩) (fun _ _ _ _ ht => ⟨ht.settled, ht.heard⟩)
    (fun _ level ht => ht.mark level) (fun _ ht => ht.clear) h

end Attuned

/-! ### Runs -/

inductive ModuleOp where
  | buffer (op : BufOp)
  | memInit (maxHeap : ℕ) (hasRealloc : Bool)
  | setClearPct (pct : ℕ)
  | setLwipHeap (i : ℕ)
  | initPools (cfgs : List PoolCfg)
  | customMalloc (size : ℕ)
  | customCalloc (count size : ℕ)
  | customFree (ptr : ℕ)
  | registerEth
  | registerTls

def operate (k : ℕ) (s : Sys Delivered) : ModuleOp → Option (Sys Delivered)
  | .buffer op => some (perform (hookEnv k) s op)
  | .memInit maxHeap hasRealloc => some (memInit maxHeap hasRealloc s)
  | .setClearPct pct => some (memSetPressureClearPct pct s)
  | .setLwipHeap i => some (memBufferSetLwipHeap i s).2
  | .initPools cfgs => some (memBufferLwipInitPools (hookEnv k) cfgs s).2
  | .customMalloc size => some (memBufferCustomMalloc (hookEnv k) size s).2
  | .customCalloc count size => some (memBufferCustomCalloc (hookEnv k) count size s).2
  | .customFree ptr => some (memBufferCustomFree (hookEnv k) ptr s)
  | .registerEth => some (memRegisterPressureHookEthRx (hookEnv k) { s with world := { s.world with eth := .none } })
  | .registerTls => some (memRegisterPressureHookTlsRx (hookEnv k) { s with world := { s.world with tls := .none } })

def calm (s : Sys Delivered) : ModuleOp → Prop
  | .registerEth => max s.prs.globalLevel s.prs.ethLevel = .none
  | .registerTls => max s.prs.globalLevel s.prs.tlsLevel = .none
  | _ => True

def InStep (s : Sys Delivered) : Prop :=
  (s.prs.ethHook = true → s.world.eth = max s.prs.globalLevel s.prs.ethLevel) ∧
    (s.prs.tlsHook = true → s.world.tls = max s.prs.globalLevel s.prs.tlsLevel)

lemma operate_inv {P : Sys Delivered → Prop} (hmoves : ∀ i s t, Moves (hookEnv k) i s t → P s → P t)
    (hsilent : ∀ s t, Silent s t → P s → P t) (hpct : ∀ pct s, P s → P (memSetPressureClearPct pct s))
    (hother : ∀ t, op = .registerEth ∨ op = .registerTls → operate k s op = some t → P t)
    (h : P s) (hstep : operate k s op = some t) : P t := by
  have hpools : ∀ i s t, True → Moves (hookEnv k) i s t → Beside i s t → P s → P t := fun i s t _ hm _ => hmoves i s t hm
  cases op with
  | buffer op =>
    cases hstep
    cases op with
    | create initialCap maxCap lockSize flags => exact hsilent _ _ (Silent.create (Prod.eta _).symm) h
    | destroy i => exact hsilent _ _ (Silent.destroy i s) h
    | push i data => exact hmoves i _ _ (Moves.push data s) h
    | pop i n => exact hmoves i _ _ (Moves.pop n s) h
    | reserve i n => exact hmoves i _ _ (Moves.reserve n s) h
    | malloc i size => exact hmoves i _ _ (Moves.poolMalloc size s) h
    | free i ptr => exact hmoves i _ _ (Moves.poolFree ptr s) h
    | setOwner _ _ | setGrow _ _ _ | setShrink _ _ _ | setMaxSize _ _ => exact hsilent s _ ⟨rfl, rfl⟩ h
  | memInit maxHeap hasRealloc =>
    cases hstep
    exact hsilent s _ ⟨rfl, rfl⟩ h
  | setClearPct pct =>
    cases hstep
    exact hpct pct s h
  | setLwipHeap i =>
    cases hstep
    unfold memBufferSetLwipHeap
    split_ifs
    · exact h
    · exact hsilent s _ ⟨rfl, rfl⟩ h
  | initPools cfgs =>
    cases hstep
    exact hsilent _ _ (initPools_silent cfgs s) h
  | customMalloc size =>
    cases hstep
    exact (customMalloc_inv hpools (fun _ _ => trivial) size h).1
  | customCalloc count size =>
    cases hstep
    exact customCalloc_inv hpools (fun _ _ => trivial) count size h
  | customFree ptr =>
    cases hstep
    exact customFree_inv hpools (fun _ _ => trivial) ptr h
  | registerEth => exact hother t (.inl rfl) hstep
  | registerTls => exact hother t (.inr rfl) hstep

lemma Settled.clearPct {p : Pressure} (h : Settled p) (pct : ℕ) : Settled { p with clearPct := pct } :=
  ⟨⟨h.levels.global, h.levels.eth, h.levels.tls⟩, h.eth, h.tls⟩

lemma Attuned.register {eth tls : Bool} (h : Attuned s) {w : Delivered} (heth : eth = true → w.eth = s.prs.ethEffective)
    (htls : tls = true → w.tls = s.prs.tlsEffective) :
    Attuned (memPressureUpdateEffective (hookEnv k)
      { s with prs := { s.prs with ethHook := eth, tlsHook := tls }, world := w }) := by
  refine ⟨?_, updateEffective_heard ⟨heth, htls⟩⟩
  have hl : Levels { s.prs with ethHook := eth, tlsHook := tls } := ⟨h.settled.levels.global, h.settled.levels.eth, h.settled.levels.tls⟩
  rw [updateEffective_prs hl]
  exact hl.updated

lemma operate_attuned (h : Attuned s) (hcalm : calm s op) (hstep : operate k s op = some t) : Attuned t := by
  refine operate_inv (fun _ _ _ hm hs => hs.moves hm) (fun _ _ hst hs => hs.silent hst) ?_ ?_ h hstep
  · intro pct u hu
    unfold memSetPressureClearPct
    split_ifs
    · exact ⟨hu.settled.clearPct pct, hu.heard⟩
    · exact hu
  · rintro t (rfl | rfl) ht
    · cases ht
      exact h.register (fun _ => (h.settled.eth.trans hcalm).symm) h.heard.2
    · cases ht
      exact h.register h.heard.1 fun _ => (h.settled.tls.trans hcalm).symm

/-- **The hooks are in step with the pressure** in every run in which they are registered while there is none. -/
theorem hooks_in_step (k : ℕ) (allocs : ℕ → Option Raw) (ops : List ModuleOp) (s : Sys Delivered)
    (hcalm : Along calm (operate k) { allocs, world := {} } ops) (h : run (operate k) { allocs, world := {} } ops = some s) :
    InStep s := by
  have hatt : Attuned s := by
    refine run_inv_along Attuned ?_ ?_ hcalm h
    · exact fun _ _ _ hs hc hstep => operate_attuned hs hc hstep
    · exact ⟨⟨⟨fun _ => rfl, fun _ => rfl, fun _ => rfl⟩, rfl, rfl⟩, nofun, nofun⟩
  exact ⟨fun hh => (hatt.heard.1 hh).trans hatt.settled.eth, fun hh => (hatt.heard.2 hh).trans hatt.settled.tls⟩

def fillRing : List ModuleOp :=
  [.memInit 0 true, .buffer (.create 10 10 0 {}), .buffer (.setOwner 0 .ethRx), .buffer (.push 0 [1, 2, 3, 4, 5, 6, 7, 8])]

theorem hooks_in_step_before : ∃ s, run (operate 48) { allocs := plenty, world := {} } (.registerEth :: fillRing) = some s ∧
    s.world.eth = .mild ∧ InStep s := by
  refine ⟨_, rfl, by decide +kernel, hooks_in_step 48 plenty (.registerEth :: fillRing) _ ?_ rfl⟩
  refine ⟨rfl, fun s _ => along_of_forall ?_ s⟩
  intro s op hop
  simp only [fillRing, mem_cons, not_mem_nil, or_false] at hop
  rcases hop with rfl | rfl | rfl | rfl <;> trivial

/-- A hook that comes later is not. -/
theorem hooks_out_of_step : ∃ s, run (operate 48) { allocs := plenty, world := {} } (fillRing ++ [.registerEth]) = some s ∧
    s.prs.ethHook = true ∧ s.world.eth = .none ∧ max s.prs.globalLevel s.prs.ethLevel = .mild :=
  ⟨_, rfl, by decide +kernel, by decide +kernel, by decide +kernel⟩

end LwftpCe.Buffer
