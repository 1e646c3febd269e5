import LwftpCe.Eth.Registration

/-!
# The pressure and the driver

What the driver is told of the pressure, over whole runs.  Every change of the pressure is a `Nudge`: afterwards the level
that has been told is that of the pressure, and `eth_set_rx_throttle` has been called if it is another one than before.  An
operation on a receive ring nudges by the level of the ring, an operation elsewhere by the levels of the pools.
-/

namespace LwftpCe.Eth

open Buffer

def Pressure.pools (p : Pressure) : Level := if p.globalActive then p.globalLevel else .none

def Pressure.Coherent (p : Pressure) : Prop := p.ethActive = false → p.ethLevel = .none

lemma Pressure.Coherent.effective {p : Pressure} (h : Pressure.Coherent p) :
    p.effective p.ethActive p.ethLevel = max (Pressure.pools p) p.ethLevel := p.effective_eq_max h

/-! ### What the driver has been told -/

/-- The driver knows the level: its own is the one that it has been told, or is none since it has not been told any. -/
structure Told (s : Sys Driver) : Prop where
  coherent : Pressure.Coherent s.prs
  synced : s.prs.ethEffective = max (Pressure.pools s.prs) s.prs.ethLevel
  throttle : s.world.ethRxThrottleLevel = .none ∨ s.prs.ethHook = true ∧ s.world.ethRxThrottleLevel = s.prs.ethEffective
  clearPct : s.prs.clearPct ≤ 100

structure Nudge (s t : Sys Driver) : Prop where
  coherent : Pressure.Coherent t.prs
  synced : t.prs.ethEffective = max (Pressure.pools t.prs) t.prs.ethLevel
  hook : t.prs.ethHook = s.prs.ethHook
  clearPct : t.prs.clearPct = s.prs.clearPct
  world : t.world = if t.prs.ethEffective ≠ s.prs.ethEffective ∧ s.prs.ethHook = true then
    ethSetRxThrottle t.prs.ethEffective s.world else s.world

section Nudge

variable {k i : ℕ} {s t u : Sys Driver} {level : Level}

lemma ethSetRxThrottle_level (level : Level) (w : Driver) : (ethSetRxThrottle level w).ethRxThrottleLevel = level := by
  unfold ethSetRxThrottle
  simp only
  split_ifs
  · rfl
  · rfl

lemma Told.congr (h : Told s) (hprs : t.prs = s.prs) (hthr : t.world.ethRxThrottleLevel = s.world.ethRxThrottleLevel) : Told t :=
  ⟨hprs ▸ h.coherent, hprs ▸ h.synced, by rw [hprs, hthr]; exact h.throttle, hprs ▸ h.clearPct⟩

lemma Told.silent (h : Told s) (hst : Silent s t) : Told t := h.congr hst.1 (by rw [hst.2])

lemma Told.nudge (h : Told s) (hn : Nudge s t) : Told t := by
  refine ⟨hn.coherent, hn.synced, ?_, hn.clearPct ▸ h.clearPct⟩
  rw [hn.world, hn.hook]
  split_ifs with hcall
  · exact .inr ⟨hcall.2, ethSetRxThrottle_level ..⟩
  · rcases h.throttle with hnone | ⟨hhook, hthr⟩
    · exact .inl hnone
    · refine .inr ⟨hhook, hthr.trans ?_⟩
      by_contra hne
      exact hcall ⟨Ne.symm hne, hhook⟩

lemma Nudge.refl (h : Told s) : Nudge s s := by
  refine ⟨h.coherent, h.synced, rfl, rfl, ?_⟩
  rw [if_neg fun hne => hne.1 rfl]

lemma nudge_update (hco : Pressure.Coherent u.prs) (heff : u.prs.ethEffective = s.prs.ethEffective)
    (hhook : u.prs.ethHook = s.prs.ethHook) (hpct : u.prs.clearPct = s.prs.clearPct) (hw : u.world = s.world) :
    Nudge s (memPressureUpdateEffective (ethEnv k) u) ∧
      (memPressureUpdateEffective (ethEnv k) u).prs.ethLevel = u.prs.ethLevel ∧
      Pressure.pools (memPressureUpdateEffective (ethEnv k) u).prs = Pressure.pools u.prs := by
  have heth : ∃ v, updateEthEffective (ethEnv k) u = v ∧
      v.prs = { u.prs with ethEffective := max (Pressure.pools u.prs) u.prs.ethLevel } ∧
      v.world = if max (Pressure.pools u.prs) u.prs.ethLevel ≠ s.prs.ethEffective ∧ s.prs.ethHook = true then
        ethSetRxThrottle (max (Pressure.pools u.prs) u.prs.ethLevel) s.world else s.world := by
    refine ⟨_, rfl, ?_, ?_⟩
    · unfold updateEthEffective
      rw [hco.effective]
      simp only
      split_ifs with hne
      · rfl
      · rfl
      · rw [not_ne_iff.1 hne]
    · unfold updateEthEffective
      rw [hco.effective, heff, hhook, hw]
      simp only
      split_ifs with hne hh hboth hboth hboth
      · rfl
      · exact absurd ⟨hne, hh⟩ hboth
      · exact absurd hboth.2 hh
      · rfl
      · exact absurd hboth.1 hne
      · exact hw
  obtain ⟨v, hv, hvp, hvw⟩ := heth
  unfold memPressureUpdateEffective
  rw [hv]
  -- the other half does not reach the receive side
  have htls : ∃ x, (updateTlsEffective (ethEnv k) v).prs = { v.prs with tlsEffective := x } ∧
      (updateTlsEffective (ethEnv k) v).world = v.world := by
    unfold updateTlsEffective
    simp only
    split_ifs
    · exact ⟨_, rfl, rfl⟩
    · exact ⟨_, rfl, rfl⟩
    · exact ⟨v.prs.tlsEffective, rfl, rfl⟩
  obtain ⟨x, hxp, hxw⟩ := htls
  rw [hvp] at hxp
  refine ⟨⟨?_, ?_, ?_, ?_, ?_⟩, ?_, ?_⟩
  · rw [hxp]
    exact hco
  · rw [hxp]
    rfl
  · rw [hxp]
    exact hhook
  · rw [hxp]
    exact hpct
  · rw [hxw, hvw, hxp]
  · rw [hxp]
  · rw [hxp]
    rfl

lemma nudge_update_aside (h : Told s) (hact : u.prs.ethActive = s.prs.ethActive) (hlev : u.prs.ethLevel = s.prs.ethLevel)
    (heff : u.prs.ethEffective = s.prs.ethEffective) (hhook : u.prs.ethHook = s.prs.ethHook)
    (hpct : u.prs.clearPct = s.prs.clearPct) (hw : u.world = s.world) :
    Nudge s (memPressureUpdateEffective (ethEnv k) u) ∧
      (memPressureUpdateEffective (ethEnv k) u).prs.ethLevel = s.prs.ethLevel := by
  have hco : Pressure.Coherent u.prs := by
    intro hinactive
    rw [hlev]
    exact h.coherent (hact ▸ hinactive)
  obtain ⟨hn, hl, -⟩ := nudge_update hco heff hhook hpct hw
  exact ⟨hn, hl.trans hlev⟩

lemma nudge_mark_ring (h : Told s) (hown : (s.buf i).owner = .ethRx) (level : Level) :
    Nudge s (memPressureMark (ethEnv k) i level s) ∧
      (memPressureMark (ethEnv k) i level s).prs.ethLevel = max s.prs.ethLevel level ∧
      Pressure.pools (memPressureMark (ethEnv k) i level s).prs = Pressure.pools s.prs := by
  unfold memPressureMark
  split_ifs with hnone
  · subst hnone
    exact ⟨.refl h, (max_eq_left (Level.none_le _)).symm, rfl⟩
  · rw [hown]
    exact nudge_update nofun rfl rfl rfl rfl

lemma nudge_mark_aside (h : Told s) (hown : (s.buf i).owner ≠ .ethRx) (level : Level) :
    Nudge s (memPressureMark (ethEnv k) i level s) ∧
      (memPressureMark (ethEnv k) i level s).prs.ethLevel = s.prs.ethLevel := by
  unfold memPressureMark
  split_ifs
  · exact ⟨.refl h, rfl⟩
  · cases ho : (s.buf i).owner with
    | ethRx => exact absurd ho hown
    | _ => exact nudge_update_aside h rfl rfl rfl rfl rfl rfl

def reliefOf (s : Sys Driver) (i : ℕ) : Level :=
  memPressureLevelRelief (s.buf i).lastPressureLevel (memBufferUsagePct s.cfg (s.buf i) (usedBytes (s.buf i)))

lemma nudge_clear_ring (h : Told s) (hown : (s.buf i).owner = .ethRx) : Nudge s (memPressureMaybeClear (ethEnv k) i s) ∧
      (memPressureMaybeClear (ethEnv k) i s).prs.ethLevel = reliefOf s i ∧
      Pressure.pools (memPressureMaybeClear (ethEnv k) i s).prs = Pressure.pools s.prs := by
  unfold memPressureMaybeClear
  rw [if_neg (not_lt.2 h.clearPct)]
  simp only [hown]
  refine nudge_update ?_ rfl rfl rfl rfl
  intro hinactive
  simpa using hinactive

lemma nudge_clear_aside (h : Told s) (hown : (s.buf i).owner ≠ .ethRx) : Nudge s (memPressureMaybeClear (ethEnv k) i s) ∧
      (memPressureMaybeClear (ethEnv k) i s).prs.ethLevel = s.prs.ethLevel := by
  unfold memPressureMaybeClear
  rw [if_neg (not_lt.2 h.clearPct)]
  simp only
  cases ho : (s.buf i).owner with
  | ethRx => exact absurd ho hown
  | lwipPool | tlsRx => exact nudge_update_aside h rfl rfl rfl rfl rfl rfl
  | unknown | ethTx | tlsTx => exact ⟨⟨h.coherent, h.synced, rfl, rfl, (if_neg fun hne => hne.1 rfl).symm⟩, rfl⟩

lemma nudge_mark (h : Told s) (i : ℕ) (level : Level) : Nudge s (memPressureMark (ethEnv k) i level s) := by
  rcases eq_or_ne (s.buf i).owner .ethRx with hown | hown
  · exact (nudge_mark_ring h hown level).1
  · exact (nudge_mark_aside h hown level).1

lemma nudge_clear (h : Told s) (i : ℕ) : Nudge s (memPressureMaybeClear (ethEnv k) i s) := by
  rcases eq_or_ne (s.buf i).owner .ethRx with hown | hown
  · exact (nudge_clear_ring h hown).1
  · exact (nudge_clear_aside h hown).1

end Nudge

end LwftpCe.Eth
