import LwftpCe.Buffer.Moves

/-!
# The levels of the pressure

What one mark and one clearing do to the pressure (`mark_prs`, `clear_prs`), as functions of the owner of the buffer, and
what every operation keeps of it: a level that is not active is none, and the effective levels are the larger of the global
level and that of the side (`Settled`).
-/

namespace LwftpCe.Buffer

open Pressure

variable {σ : Type} {E : Env σ} {i : ℕ} {s t : Sys σ} {p : Pressure} {owner : Owner} {level : Level}

/-! ### Effective levels -/

structure Levels (p : Pressure) : Prop where
  global : p.globalActive = false → p.globalLevel = .none
  eth : p.ethActive = false → p.ethLevel = .none
  tls : p.tlsActive = false → p.tlsLevel = .none

structure Settled (p : Pressure) : Prop where
  levels : Levels p
  eth : p.ethEffective = max p.globalLevel p.ethLevel
  tls : p.tlsEffective = max p.globalLevel p.tlsLevel

lemma effective_eq {active : Bool} {own : Level} (hg : p.globalActive = false → p.globalLevel = .none)
    (ho : active = false → own = .none) : p.effective active own = max p.globalLevel own := by
  rw [p.effective_eq_max ho]
  cases hga : p.globalActive with
  | false => rw [hg hga]; rfl
  | true => rfl

namespace Pressure

def updated (p : Pressure) : Pressure :=
  { p with ethEffective := max p.globalLevel p.ethLevel, tlsEffective := max p.globalLevel p.tlsLevel }

def raise (owner : Owner) (level : Level) (p : Pressure) : Pressure :=
  match owner with
  | .lwipPool => { p with globalActive := true, globalLevel := max p.globalLevel level }
  | .ethRx => { p with ethActive := true, ethLevel := max p.ethLevel level }
  | .tlsRx => { p with tlsActive := true, tlsLevel := max p.tlsLevel level }
  | _ => p

def setLevel (owner : Owner) (level : Level) (p : Pressure) : Pressure :=
  match owner with
  | .lwipPool => { p with globalActive := level ≠ .none, globalLevel := level }
  | .ethRx => { p with ethActive := level ≠ .none, ethLevel := level }
  | .tlsRx => { p with tlsActive := level ≠ .none, tlsLevel := level }
  | _ => p

end Pressure

lemma Settled.updated_eq (h : Settled p) : p.updated = p := by
  unfold updated
  rw [← h.eth, ← h.tls]

lemma Levels.updated (h : Levels p) : Settled p.updated := ⟨⟨h.global, h.eth, h.tls⟩, rfl, rfl⟩

lemma Levels.raise (h : Levels p) (owner : Owner) (level : Level) : Levels (p.raise owner level) := by
  cases owner with
  | lwipPool => exact ⟨nofun, h.eth, h.tls⟩
  | ethRx => exact ⟨h.global, nofun, h.tls⟩
  | tlsRx => exact ⟨h.global, h.eth, nofun⟩
  | unknown | ethTx | tlsTx => exact h

lemma Levels.setLevel (h : Levels p) (owner : Owner) (level : Level) : Levels (p.setLevel owner level) := by
  have hnone : decide (level ≠ .none) = false → level = .none := by simp
  cases owner with
  | lwipPool => exact ⟨hnone, h.eth, h.tls⟩
  | ethRx => exact ⟨h.global, hnone, h.tls⟩
  | tlsRx => exact ⟨h.global, h.eth, hnone⟩
  | unknown | ethTx | tlsTx => exact h

lemma updateEffective_prs (h : Levels s.prs) : (memPressureUpdateEffective E s).prs = s.prs.updated := by
  have heth : (updateEthEffective E s).prs = { s.prs with ethEffective := max s.prs.globalLevel s.prs.ethLevel } := by
    unfold updateEthEffective
    rw [effective_eq h.global h.eth]
    dsimp only
    split_ifs with hne
    · rfl
    · rfl
    · rw [not_not.1 hne]
  unfold memPressureUpdateEffective
  generalize updateEthEffective E s = u at heth
  have htls : u.prs.effective u.prs.tlsActive u.prs.tlsLevel = max s.prs.globalLevel s.prs.tlsLevel := by
    rw [heth]
    exact effective_eq h.global h.tls
  unfold updateTlsEffective
  rw [htls]
  dsimp only
  split_ifs with hne
  · rw [heth]
    rfl
  · rw [heth]
    rfl
  · rw [updated, not_not.1 hne, heth]

/-! ### Marks and clearings -/

lemma mark_eq (hl : level ≠ .none) :
    memPressureMark E i level s = memPressureUpdateEffective E { s with prs := s.prs.raise (s.buf i).owner level } := by
  exact if_neg hl

lemma mark_prs (h : Settled s.prs) (hl : level ≠ .none) :
    (memPressureMark E i level s).prs = (s.prs.raise (s.buf i).owner level).updated := by
  rw [mark_eq hl]
  exact updateEffective_prs (h.levels.raise _ _)

def relieved (s : Sys σ) (i : ℕ) : Level :=
  memPressureLevelRelief (s.buf i).lastPressureLevel (memBufferUsagePct s.cfg (s.buf i) (usedBytes (s.buf i)))

def withRelieved (i : ℕ) (s : Sys σ) : Sys σ := s.onBuf i fun rb => { rb with lastPressureLevel := relieved s i }

def poolsRelieved (s : Sys σ) : Level :=
  if s.prs.globalActive ∧ memPressurePoolsBelowClear s then .none else memPressurePoolsLevel s

def clearedLevel (s : Sys σ) (i : ℕ) : Level :=
  if (s.buf i).owner = .lwipPool then poolsRelieved (withRelieved i s) else relieved s i

lemma maybeClear_eq (hpct : s.prs.clearPct ≤ 100) : memPressureMaybeClear E i s = match (s.buf i).owner with
    | .lwipPool | .ethRx | .tlsRx => memPressureUpdateEffective E
      { withRelieved i s with prs := s.prs.setLevel (s.buf i).owner (clearedLevel s i) }
    | _ => withRelieved i s := by
  unfold memPressureMaybeClear clearedLevel
  rw [if_neg (not_lt.2 hpct)]
  dsimp only
  cases (s.buf i).owner <;> rfl

lemma clear_prs (h : Settled s.prs) (hpct : s.prs.clearPct ≤ 100) :
    (memPressureMaybeClear E i s).prs = (s.prs.setLevel (s.buf i).owner (clearedLevel s i)).updated := by
  have hupdate : ∀ owner level, (memPressureUpdateEffective E
      { withRelieved i s with prs := s.prs.setLevel owner level }).prs = (s.prs.setLevel owner level).updated :=
    fun owner level => updateEffective_prs (h.levels.setLevel owner level)
  rw [maybeClear_eq hpct]
  cases (s.buf i).owner with
  | lwipPool | ethRx | tlsRx => exact hupdate _ _
  | unknown | ethTx | tlsTx => exact h.updated_eq.symm

namespace Settled

lemma silent (h : Settled s.prs) (hst : Silent s t) : Settled t.prs := by
  rw [hst.1]
  exact h

lemma mark (h : Settled s.prs) (level : Level) : Settled (memPressureMark E i level s).prs := by
  by_cases hl : level = .none
  · rw [memPressureMark, if_pos hl]
    exact h
  · rw [mark_prs h hl]
    exact (h.levels.raise _ _).updated

lemma clear (h : Settled s.prs) : Settled (memPressureMaybeClear E i s).prs := by
  by_cases hpct : s.prs.clearPct ≤ 100
  · rw [clear_prs h hpct]
    exact (h.levels.setLevel _ _).updated
  · rw [memPressureMaybeClear, if_pos (not_le.1 hpct)]
    exact h

lemma moves (h : Settled s.prs) (hm : Moves E i s t) : Settled t.prs :=
  hm.inv (fun t => Settled t.prs) (fun _ _ ht _ => ht) (fun _ _ _ _ ht => ht) (fun _ level ht => ht.mark level)
    (fun _ ht => ht.clear) h

end Settled

end LwftpCe.Buffer
