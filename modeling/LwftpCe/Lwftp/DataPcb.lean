import LwftpCe.Lwftp.Log

/-!
# The data block when it is used

`lwftp_send_next_data` and `lwftp_data_open` go through `data_pcb` without a test.  `lwftp_data_open` finds it set, since
nothing clears it between the start of a transfer and the PASV reply.  `lwftp_send_next_data` runs at the 150 that answers
STOR, and there the block is gone exactly if the data connection was closed or lost since STOR was sent: in `STOR_SENT`
these events clear `data_pcb` and leave the state as it is.
-/

namespace LwftpCe.Lwftp

open Lib

variable {K U : Type} {s s' : Session K U} {l o : List (Obs K)} {st st' : State} {v : Verb} {r : Result}

def lostStep : Obs K → Bool → Bool
  | .send .stor _, _ => false
  | .dataFin _, _ | .dataErr _, _ => true
  | _, g => g

def lost (t : List (Obs K)) : Bool := t.foldr lostStep false

def usesLive : Obs K → Bool → Bool
  | .sendNextData none, _ | .dataOpen none, _ => false
  | _, _ => true

def startsInTime : Obs K → Bool → Bool
  | .reply 150 .storSent, g => !g
  | _, _ => true

lemma lostStep_quiet (o : Obs K) (g : Bool) (h : o.quiet = true) : lostStep o g = g := by
  cases o with
  | send | dataFin | dataErr => cases h
  | _ => rfl

lemma usesLive_quiet (o : Obs K) (g : Bool) (h : o.quiet = true) : usesLive o g = true := by
  cases o with
  | sendNextData p | dataOpen p => cases p <;> first | rfl | cases h
  | _ => rfl

lemma startsInTime_quiet (o : Obs K) (g : Bool) (h : o.quiet = true) : startsInTime o g = true := by
  cases o with
  | reply => cases h
  | _ => rfl

def Agree (l : List (Obs K)) : Prop :=
  Always (fun o t => usesLive o (lost t)) l ↔ Always (fun o t => startsInTime o (lost t)) l

/-- The invariant: the properties agree so far, and in `STOR_SENT` the block is gone exactly if the connection is. -/
structure Live (s : Session K U) : Prop where
  agree : Agree s.log
  stor : s.fault = false → s.controlState = .storSent → (s.dataPcb = none ↔ lost s.log = true)

lemma Agree.cons (h : Agree l) {o : Obs K} (h1 : usesLive o (lost l) = true)
    (h2 : startsInTime o (lost l) = true) : Agree (o :: l) := by
  unfold Agree
  simp only [always_cons, h1, h2, true_and]
  exact h

lemma Agree.dones (h : Agree l) (s : Session K U) (r : Result) : Agree (s.dones r ++ l) := by
  unfold Session.dones
  cases s.user.doneFn with
  | none => exact h
  | some k => exact h.cons rfl rfl

lemma startsInTime_reply {code : ℕ} (h : st ≠ .storSent ∨ code ≠ 150) (g : Bool) :
    startsInTime (.reply code st : Obs K) g = true := by
  unfold startsInTime
  split
  · simp_all
  · rfl

lemma Agree.prompted (h : Agree l) (hp : Prompt st o v st') : Agree (o ++ l) := by
  cases hp with
  | advance ha => exact h.cons rfl (startsInTime_reply (.inl (by cases ha <;> simp)) _)
  | opens => exact h.cons rfl rfl
  | refuse hl => exact h.cons rfl (startsInTime_reply (.inl (by rintro rfl; cases hl)) _)
  | start | command => exact h
  | quit => exact h.cons rfl rfl

lemma Agree.ended (h : Agree l) (he : Ending st o r st') : Agree (o ++ l) := by
  cases he with
  | login | closes => exact h.cons rfl (startsInTime_reply (.inl (by simp)) _)
  | data hf =>
    refine h.cons rfl (startsInTime_reply ?_ _)
    cases hf with
    | stor hc => exact .inr hc
    | _ => exact .inl (by simp)
  | cmd hst => exact h.cons rfl (startsInTime_reply (.inl (by rintro rfl; cases hst)) _)
  | dataErr => exact h.cons rfl rfl
  | hangup => exact h

lemma Prompt.stor (h : Prompt st o v .storSent) : v = .stor := by
  cases h with
  | advance h | command h => cases h
  | opens h => cases h; rfl

lemma Ending.ne_storSent (h : Ending st o r st') : st' ≠ .storSent := by
  cases h <;> simp

lemma Deed.live (hf : s.fault = false) (d : Deed s s') (h : Live s) : Live s' := by
  cases d with
  | still hl hst hp =>
    refine ⟨hl ▸ h.agree, fun _ h' => ?_⟩
    rw [hl, hp h']
    exact h.stor hf (hst ▸ h')
  | faults hf' hl =>
    refine ⟨?_, fun hf => absurd (hf'.symm.trans hf) (by simp)⟩
    rcases hl with hl | ⟨o, v, st, hp, hl⟩
    · exact hl ▸ h.agree
    · exact hl ▸ h.agree.prompted hp
  | connected hl hst => exact ⟨hl ▸ h.agree.cons rfl rfl, fun _ h' => by simp [hst] at h'⟩
  | noQuit hl hst hp =>
    refine ⟨hl ▸ h.agree.cons rfl rfl, fun _ h' => ?_⟩
    rw [hl, hp]
    exact h.stor hf (hst ▸ h')
  | gone o ho hl hst hp =>
    have ha : Agree (o :: s.log) := by rcases ho with rfl | rfl <;> exact h.agree.cons rfl rfl
    refine ⟨hl ▸ ha, fun _ _ => ⟨fun _ => ?_, fun _ => hp⟩⟩
    rw [hl]
    rcases ho with rfl | rfl <;> rfl
  | ignored code hi hl hst =>
    have hne : s.controlState ≠ .storSent := by rcases hi with hi | hi <;> simp [hi]
    exact ⟨hl ▸ h.agree.cons rfl (startsInTime_reply (.inl hne) _), fun _ h' => absurd (hst ▸ h') hne⟩
  | sends o v msgs hp hl hd =>
    refine ⟨hl ▸ (h.agree.prompted hp).cons rfl rfl, fun _ h' => ⟨fun hn => absurd hn (hd h'), fun hlost => ?_⟩⟩
    rw [h'] at hp
    rw [hl, hp.stor] at hlost
    cases hlost
  | begins use hst hl hx hu =>
    refine ⟨?_, fun _ h' => by simp [hx] at h'⟩
    rw [hl]
    rcases hu with ⟨rfl, hd⟩ | ⟨rfl, hs, hd⟩
    · refine h.agree.cons rfl ?_
      by_cases hs : s.controlState = .storSent
      · have hlost : lost s.log = false := by simpa [hd hs] using h.stor hf hs
        simp [hs, startsInTime, hlost]
      · exact startsInTime_reply (.inl hs) _
    · -- the reply comes too late, and the use of the block goes through `NULL`
      have hlost : lost s.log = true := (h.stor hf hs).1 hd
      unfold Agree
      simp [hs, usesLive, startsInTime, hlost]
  | ends o r he hl => exact ⟨hl ▸ (h.agree.ended he).dones s r, fun _ h' => absurd h' he.ne_storSent⟩

/-! ### Runs -/

/-- **The data block at its uses.**  In every run, `data_pcb` is set whenever `lwftp_send_next_data` or `lwftp_data_open`
runs if and only if no reply 150 to STOR is received after the data connection was closed or lost. -/
theorem data_pcb_live_iff {c : Caller K U} (hc : Lawful c) (user : User K) (usr : U) (es : List (Event K U))
    (s : Session K U) (hs : run (step c) (initial user usr) es = some s) :
    Always (fun o t => usesLive o (lost t)) s.trace ↔ Always (fun o t => startsInTime o (lost t)) s.trace := by
  have h0 : Live (initial user usr : Session K U) := ⟨Iff.rfl, fun _ h' => by cases h'⟩
  have h := (run_moves_inv Live (fun _ _ hw hf m h => (m.deed hw).live hf h) hc h0 hs).2
  have h1 := always_log lostStep_quiet usesLive_quiet false s
  have h2 := always_log lostStep_quiet startsInTime_quiet false s
  exact h1.symm.trans (h.agree.trans h2)

theorem data_pcb_live_upload : ∃ s, run (step (idleCaller [])) (initial idleUser ())
        (openRun (.store (some 536)) ++ [.tcp (.dataConnected ⟨1, 536⟩ true), line ⟨0, 536⟩ "150 send\r\n"]) = some s ∧
      s.controlState = .xfering ∧ Always (fun o t => usesLive o (lost t)) s.trace :=
  ⟨_, rfl, rfl, (data_pcb_live_iff (idleCaller_lawful []) idleUser ()
    (openRun (.store (some 536)) ++ [.tcp (.dataConnected ⟨1, 536⟩ true), line ⟨0, 536⟩ "150 send\r\n"]) _ rfl).2
    (by decide)⟩

def resetBeforeStart : List (Event Unit Unit) :=
  openRun (.store (some 536)) ++ [.tcp (.dataErr ⟨1, 536⟩), line ⟨0, 536⟩ "150 send\r\n"]

/-- `lwftp_send_next_data` runs with `data_pcb == NULL`. -/
theorem data_pcb_null : ∃ s, run (step (idleCaller [])) (initial idleUser ()) resetBeforeStart = some s ∧
      ¬ Always (fun o t => usesLive o (lost t)) s.trace :=
  ⟨_, rfl, by decide⟩

end LwftpCe.Lwftp
