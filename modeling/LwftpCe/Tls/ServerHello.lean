import LwftpCe.Lib.Cases
import LwftpCe.Tls.ClientHello
import LwftpCe.Tls.Process

/-!
# The ServerHello

`tls_recv_server_hello` for the messages that `tls_process_record` passes to it.
-/

namespace LwftpCe.Tls

open Lib List Mem Extension

/-! ### Reading a string -/

inductive Verdict
  | good
  | bad
  /-- a byte behind the end of the string is needed -/
  | short
deriving DecidableEq

inductive ReadNext
  | stop (v : Verdict)
  | goOn (k : ℕ) (foundSupportedVersions foundPsk : Bool)

def readHeader (n : ℕ) (bs : Bytes) (foundSupportedVersions foundPsk : Bool) : ReadNext :=
  if bs.length < 4 then .stop .short
  else
    let len := beNat ((bs.drop 2).take 2)
    if n < 4 + len then .stop .bad
    else if beNat (bs.take 2) = 0x002b then
      if len ≠ 2 then .stop .bad
      else if bs.length < 5 then .stop .short
      else if bs.getD 4 0 ≠ 0x03 then .stop .bad
      else if bs.length < 6 then .stop .short
      else if bs.getD 5 0 ≠ 0x04 then .stop .bad
      else .goOn 6 true foundPsk
    else if beNat (bs.take 2) = 0x0029 then
      if len ≠ 2 then .stop .bad
      else if bs.length < 6 then .stop .short
      else if beNat ((bs.drop 4).take 2) ≠ 0 then .stop .bad
      else .goOn 6 foundSupportedVersions true
    else .goOn (4 + len) foundSupportedVersions foundPsk

def readExt (n : ℕ) (bs : Bytes) (foundSupportedVersions foundPsk : Bool) : ReadNext :=
  if n = 0 then .stop (if foundSupportedVersions ∧ foundPsk then .good else .bad)
  else if n < 4 then .stop .bad
  else readHeader n bs foundSupportedVersions foundPsk

def readExts : ℕ → ℕ → Bytes → Bool → Bool → Verdict
  | 0, _, _, _, _ => .bad
  | fuel + 1, n, bs, foundSupportedVersions, foundPsk =>
    match readExt n bs foundSupportedVersions foundPsk with
    | .stop v => v
    | .goOn k foundSupportedVersions foundPsk => readExts fuel (n - k) (bs.drop k) foundSupportedVersions foundPsk

def readExtVec (n : ℕ) (bs : Bytes) : Verdict :=
  if n < 2 then .bad
  else if bs.length < 2 then .short
  else
    let extLen := beNat (bs.take 2)
    if n < 2 + extLen then .bad else readExts (extLen + 1) extLen (bs.drop 2) false false

def readCompression (n : ℕ) (bs : Bytes) : Verdict :=
  if n < 1 then .bad
  else if bs.length < 1 then .short
  else if bs.getD 0 0 ≠ 0x00 then .bad
  else readExtVec (n - 1) (bs.drop 1)

def readSuite (suite n : ℕ) (bs : Bytes) : Verdict :=
  if n < 2 then .bad
  else if bs.length < 2 then .short
  else if beNat (bs.take 2) ≠ suite then .bad
  else readCompression (n - 2) (bs.drop 2)

def readHello (suite n : ℕ) (bs : Bytes) : Verdict :=
  if n < 1 then .bad
  else if bs.length < 1 then .short
  else
    let sid := (bs.getD 0 0).toNat
    if n < 1 + sid then .bad else readSuite suite (n - (1 + sid)) (bs.drop (1 + sid))

/-! ### The function reads the string -/

section Simulation

variable {data : Mem} {A a : ℕ} {extEnd reach : ℕ} {r : ℕ} {sv psk : Bool}

def bytesFrom (data : Mem) (A a : ℕ) : Bytes := data.read a (A - a)

@[simp] lemma length_bytesFrom : (bytesFrom data A a).length = A - a := length_read ..

lemma drop_bytesFrom (k : ℕ) : (bytesFrom data A a).drop k = bytesFrom data A (a + k) := by
  refine ext_getElem (by simp; omega) fun i h _ => ?_
  simp [bytesFrom, Mem.read, Nat.add_assoc]

lemma getD_bytesFrom {k : ℕ} (h : a + k < A) : (bytesFrom data A a).getD k 0 = data (a + k) := by
  have hk : k < A - a := by omega
  simp [bytesFrom, Mem.read, hk]

lemma beNat_bytesFrom (h : a + 2 ≤ A) : beNat ((bytesFrom data A a).take 2) = be16At data a := by
  have htake : (bytesFrom data A a).take 2 = [data a, data (a + 1)] := by
    obtain ⟨k, hk⟩ : ∃ k, A - a = k + 1 + 1 := ⟨A - a - 2, by omega⟩
    simp [bytesFrom, Mem.read, hk, range_succ_eq_map]
  rw [htake]
  simp [beNat, be16At]
  omega

/-- An iteration of the loop over the extensions and a step of the reader. -/
inductive StepSim (A offset : ℕ) : ReadNext → ExtNext → Prop
  | good {reach : ℕ} : StepSim A offset (.stop .good) (.stop (some (true, true)) reach)
  | bad {found : Option (Bool × Bool)} {reach : ℕ} : found ≠ some (true, true) → reach ≤ A →
      StepSim A offset (.stop .bad) (.stop found reach)
  | shortStop {found : Option (Bool × Bool)} {reach : ℕ} : A < reach → StepSim A offset (.stop .short) (.stop found reach)
  | shortGoOn {o : ℕ} {sv psk : Bool} {reach : ℕ} : A < reach → reach ≤ o →
      StepSim A offset (.stop .short) (.goOn o sv psk reach)
  | goOn {k : ℕ} {sv psk : Bool} {reach : ℕ} : reach ≤ A → reach ≤ offset + k →
      StepSim A offset (.goOn k sv psk) (.goOn (offset + k) sv psk reach)

lemma headerSim (sv psk : Bool) : StepSim A offset (readHeader (extEnd - offset) (bytesFrom data A offset) sv psk)
      (extensionHeader data extEnd offset sv psk) := by
  unfold readHeader extensionHeader
  rw [length_bytesFrom]
  dsimp only
  by_cases hA : A - offset < 4
  · split_ifs
    all_goals first
      | exact .shortStop (by omega)
      | exact .shortGoOn (by omega) (by omega)
  rw [if_neg hA, drop_bytesFrom, drop_bytesFrom, beNat_bytesFrom (by omega), beNat_bytesFrom (by omega)]
  generalize be16At data (offset + 2) = len
  refine rel_ite (by omega) (fun _ => .bad (by simp) (by omega)) fun hlen => ?_
  refine rel_ite Iff.rfl (fun _ => ?_) fun _ => rel_ite Iff.rfl (fun _ => ?_) fun _ => ?_
  · refine rel_ite Iff.rfl (fun _ => .bad (by simp) (by omega)) fun h2 => rel_ite_left (fun h5 => ?_) fun h5 => ?_
    · split_ifs
      · exact .shortStop (by omega)
      · exact .shortStop (by omega)
      · exact .shortGoOn (by omega) (by omega)
    rw [getD_bytesFrom (by omega)]
    refine rel_ite Iff.rfl (fun _ => .bad (by simp) (by omega)) fun _ => rel_ite_left (fun h6 => ?_) fun h6 => ?_
    · split_ifs
      · exact .shortStop (by omega)
      · exact .shortGoOn (by omega) (by omega)
    rw [getD_bytesFrom (by omega), show len = 2 from not_not.1 h2]
    exact rel_ite Iff.rfl (fun _ => .bad (by simp) (by omega)) fun _ => .goOn (by omega) (by omega)
  · refine rel_ite Iff.rfl (fun _ => .bad (by simp) (by omega)) fun h2 => rel_ite_left (fun h6 => ?_) fun h6 => ?_
    · split_ifs
      · exact .shortStop (by omega)
      · exact .shortGoOn (by omega) (by omega)
    rw [beNat_bytesFrom (by omega), show len = 2 from not_not.1 h2]
    exact rel_ite Iff.rfl (fun _ => .bad (by simp) (by omega)) fun _ => .goOn (by omega) (by omega)
  · rw [Nat.add_assoc]
    exact .goOn (by omega) (by omega)

lemma stepSim {extEnd offset reach : ℕ} (sv psk : Bool) (hr : reach ≤ A) :
    StepSim A offset (readExt (extEnd - offset) (bytesFrom data A offset) sv psk)
      (extensionStep data extEnd offset sv psk reach) := by
  unfold readExt extensionStep
  by_cases h0 : offset < extEnd
  · rw [if_neg (by omega), if_pos h0]
    exact rel_ite (by omega) (fun _ => .bad (by simp) hr) fun _ => headerSim sv psk
  · rw [if_pos (by omega), if_neg h0]
    by_cases hfound : sv = true ∧ psk = true
    · rw [hfound.1, hfound.2]
      exact .good
    · rw [if_neg hfound]
      refine .bad (fun h => hfound ?_) hr
      simpa using h

lemma extensionStep_goOn {o : ℕ} {sv' psk' : Bool} (h : extensionStep data extEnd offset sv psk reach = .goOn o sv' psk' r) :
    offset + 4 ≤ o ∧ o ≤ extEnd ∧ offset + 4 ≤ r ∧ r ≤ o := by
  unfold extensionStep extensionHeader at h
  dsimp only at h
  split_ifs at h
  all_goals cases h
  all_goals omega

lemma extensionStep_stop {found : Option (Bool × Bool)} (h : extensionStep data extEnd offset sv psk reach = .stop found r) :
    (r = reach ∨ offset + 4 ≤ r) ∧ (reach ≤ extEnd → r ≤ extEnd) := by
  unfold extensionStep extensionHeader at h
  dsimp only at h
  split_ifs at h
  all_goals cases h
  all_goals omega

lemma extensionsLoop_bounds (data : Mem) (extEnd fuel offset : ℕ) (sv psk : Bool) (reach : ℕ) :
    (reach ≤ offset → reach ≤ (extensionsLoop data extEnd fuel offset sv psk reach).reach) ∧
      (reach ≤ extEnd → (extensionsLoop data extEnd fuel offset sv psk reach).reach ≤ extEnd) ∧
      (extensionsLoop data extEnd fuel offset sv psk reach).steps ≤ (extEnd - offset) / 4 + 1 := by
  induction fuel generalizing offset sv psk reach with
  | zero => exact ⟨fun _ => le_rfl, id, Nat.zero_le _⟩
  | succ fuel ih =>
    unfold extensionsLoop
    cases h : extensionStep data extEnd offset sv psk reach with
    | stop found r =>
      have hstop := extensionStep_stop h
      dsimp only
      omega
    | goOn o sv' psk' r =>
      have hgoOn := extensionStep_goOn h
      have hrest := ih o sv' psk' r
      dsimp only
      omega

/-- The loop over the extensions and the reader agree. -/
structure ExtSim (v : Verdict) (s : ExtScan) (A : ℕ) : Prop where
  good : v = .good → s.found = some (true, true)
  bad : v = .bad → s.found ≠ some (true, true) ∧ s.reach ≤ A
  short : v = .short → A < s.reach

lemma extSim {extEnd : ℕ} (fuel offset : ℕ) (sv psk : Bool) {reach : ℕ} (hf : extEnd - offset < fuel) (hr : reach ≤ A) :
    ExtSim (readExts fuel (extEnd - offset) (bytesFrom data A offset) sv psk)
      (extensionsLoop data extEnd fuel offset sv psk reach) A := by
  induction fuel generalizing offset sv psk reach with
  | zero => exact absurd hf (Nat.not_lt_zero _)
  | succ fuel ih =>
    have hsim := @stepSim data A extEnd offset reach sv psk hr
    unfold readExts extensionsLoop
    generalize hread : readExt (extEnd - offset) (bytesFrom data A offset) sv psk = x at hsim ⊢
    generalize hstep : extensionStep data extEnd offset sv psk reach = y at hsim ⊢
    cases hsim with
    | good => exact ⟨fun _ => rfl, (fun h => nomatch h), (fun h => nomatch h)⟩
    | bad hfound hle => exact ⟨(fun h => nomatch h), fun _ => ⟨hfound, hle⟩, (fun h => nomatch h)⟩
    | shortStop hlt => exact ⟨(fun h => nomatch h), (fun h => nomatch h), fun _ => hlt⟩
    | @shortGoOn o sv' psk' r hlt hle =>
      refine ⟨(fun h => nomatch h), (fun h => nomatch h), fun _ => ?_⟩
      exact lt_of_lt_of_le hlt ((extensionsLoop_bounds data extEnd fuel o sv' psk' r).1 hle)
    | @goOn k sv' psk' r hle hlt =>
      obtain ⟨hk, hend, -, -⟩ := extensionStep_goOn hstep
      have hrest := ih (offset + k) sv' psk' (by omega) hle
      dsimp only
      rw [drop_bytesFrom, Nat.sub_sub]
      exact ⟨hrest.good, hrest.bad, hrest.short⟩

structure RecvSim (data : Mem) (ctx : HsCtx) (msgEnd A : ℕ) (v : Verdict) (r : RecvCall) : Prop where
  good : v = .good → r.ok = true ∧ r.reach ≤ msgEnd ∧
    r.ctx = { ctx with transcript := ctx.transcript.map (· ++ data.read 0 msgEnd), state := .serverHelloReceived }
  bad : v = .bad → r.ok = false ∧ r.reach ≤ A ∧ r.ctx = { ctx with state := .error }
  short : v = .short → A < msgEnd → A < r.reach

variable {ctx : HsCtx} {msgEnd offset : ℕ}

lemma RecvSim.ofError {steps : ℕ} (h : reach ≤ A) : RecvSim data ctx msgEnd A .bad (.error ctx reach steps) :=
  ⟨(fun h => nomatch h), fun _ => ⟨rfl, h, rfl⟩, (fun h => nomatch h)⟩

lemma RecvSim.ofShort {r : RecvCall} (h : A < msgEnd → A < r.reach) : RecvSim data ctx msgEnd A .short r :=
  ⟨(fun h => nomatch h), (fun h => nomatch h), fun _ => h⟩

/-! What has been read before a step stays read. -/

lemma recvExtensions_reach (h : offset ≤ msgEnd) : offset ≤ (recvExtensions ctx data msgEnd offset).reach := by
  have hloop := (extensionsLoop_bounds data (offset + 2 + be16At data offset) (be16At data offset + 1)
    (offset + 2) false false _).1 le_rfl
  unfold recvExtensions
  dsimp only
  split_ifs
  · exact le_rfl
  · exact Nat.le_add_right ..
  · exact h
  · exact le_trans (Nat.le_add_right ..) hloop
  · exact le_trans (Nat.le_add_right ..) hloop

lemma recvCompression_reach : offset ≤ (recvCompression ctx data msgEnd offset).reach := by
  unfold recvCompression
  split_ifs
  · exact le_rfl
  · exact Nat.le_add_right ..
  · exact le_trans (Nat.le_add_right ..) (recvExtensions_reach (by omega))

lemma recvCipherSuite_reach (h : 39 ≤ offset) : 39 ≤ (recvCipherSuite ctx data msgEnd offset).reach := by
  unfold recvCipherSuite
  split_ifs
  · exact le_rfl
  · exact le_trans h (Nat.le_add_right ..)
  · exact le_trans (by omega) recvCompression_reach

/-! The steps read what the reader reads. -/

lemma recvExtensions_sim (h : offset ≤ A) :
    RecvSim data ctx msgEnd A (readExtVec (msgEnd - offset) (bytesFrom data A offset)) (recvExtensions ctx data msgEnd offset) := by
  obtain ⟨hloop, hle, -⟩ := extensionsLoop_bounds data (offset + 2 + be16At data offset) (be16At data offset + 1)
    (offset + 2) false false (offset + 2)
  unfold readExtVec recvExtensions
  rw [length_bytesFrom]
  refine rel_ite (by omega) (fun _ => .ofError h) fun h2 => rel_ite_left (fun hA => .ofShort fun hend => ?_) fun hA => ?_
  · dsimp only
    split_ifs
    · exact (by omega : A < offset + 2)
    · exact hend
    · exact lt_of_lt_of_le (by omega) (hloop le_rfl)
    · exact lt_of_lt_of_le (by omega) (hloop le_rfl)
  rw [beNat_bytesFrom (by omega), drop_bytesFrom]
  dsimp only
  generalize be16At data offset = extLen at hloop hle ⊢
  refine rel_ite (by omega) (fun _ => .ofError (by omega)) fun hext => ?_
  have hsim := @extSim data A (offset + 2 + extLen) (extLen + 1) (offset + 2) false false (offset + 2) (by omega) (by omega)
  rw [Nat.add_sub_cancel_left] at hsim
  refine ⟨fun hv => ?_, fun hv => ?_, fun hv hend => ?_⟩
  · rw [if_pos (hsim.good hv)]
    refine ⟨rfl, ?_, rfl⟩
    dsimp only
    split_ifs <;> omega
  · obtain ⟨hfound, hreach⟩ := hsim.bad hv
    rw [if_neg hfound]
    exact ⟨rfl, hreach, rfl⟩
  · have hlt := hsim.short hv
    split_ifs
    · exact hend
    · exact hlt
    · exact hlt

lemma recvCompression_sim (h : offset ≤ A) : RecvSim data ctx msgEnd A (readCompression (msgEnd - offset) (bytesFrom data A offset))
      (recvCompression ctx data msgEnd offset) := by
  unfold readCompression recvCompression
  rw [length_bytesFrom]
  refine rel_ite (by omega) (fun _ => .ofError h) fun h1 => rel_ite_left (fun hA => .ofShort fun _ => ?_) fun hA => ?_
  · split_ifs
    · exact (by omega : A < offset + 1)
    · exact lt_of_lt_of_le (by omega) (recvExtensions_reach (by omega))
  rw [getD_bytesFrom (by omega), drop_bytesFrom, Nat.sub_sub]
  exact rel_ite Iff.rfl (fun _ => .ofError (by omega)) fun _ => recvExtensions_sim (by omega)

lemma recvCipherSuite_sim (h : 39 ≤ A) :
    RecvSim data ctx msgEnd A (readSuite ctx.cipherSuite (msgEnd - offset) (bytesFrom data A offset))
      (recvCipherSuite ctx data msgEnd offset) := by
  unfold readSuite recvCipherSuite
  rw [length_bytesFrom]
  refine rel_ite (by omega) (fun _ => .ofError h) fun h2 => rel_ite_left (fun hA => .ofShort fun _ => ?_) fun hA => ?_
  · split_ifs
    · exact (by omega : A < offset + 2)
    · exact lt_of_lt_of_le (by omega) recvCompression_reach
  rw [beNat_bytesFrom (by omega), drop_bytesFrom, Nat.sub_sub]
  exact rel_ite Iff.rfl (fun _ => .ofError (by omega)) fun _ => recvCompression_sim (by omega)

lemma recvSessionId_sim (h : 38 ≤ A) : RecvSim data ctx msgEnd A (readHello ctx.cipherSuite (msgEnd - 38) (bytesFrom data A 38))
      (recvSessionId ctx data msgEnd) := by
  unfold readHello recvSessionId
  rw [length_bytesFrom]
  refine rel_ite (by omega) (fun _ => .ofError h) fun h1 => rel_ite_left (fun hA => .ofShort fun _ => ?_) fun hA => ?_
  · dsimp only
    split_ifs
    · exact (by omega : A < 39)
    · exact lt_of_lt_of_le (by omega) (recvCipherSuite_reach (by omega))
  rw [getD_bytesFrom (by omega)]
  dsimp only
  rw [drop_bytesFrom, Nat.add_zero]
  refine rel_ite (by omega) (fun _ => .ofError (by omega)) fun hsid => ?_
  rw [Nat.sub_sub, ← Nat.add_assoc]
  exact recvCipherSuite_sim (by omega)

lemma recvSessionId_reach : 38 ≤ (recvSessionId ctx data msgEnd).reach := by
  unfold recvSessionId
  dsimp only
  split_ifs
  · exact le_rfl
  · exact (by decide : 38 ≤ 39)
  · exact le_trans (by decide) (recvCipherSuite_reach (by omega))

end Simulation

/-! ### The reader and the grammar -/

section Grammar

variable {n : ℕ} {bs : Bytes} {sv psk : Bool}

/-- The steps of the reader where all the bytes are there: none behind them is needed. -/
inductive ReadsExt (n : ℕ) (bs : Bytes) (sv psk : Bool) : ReadNext → Prop
  | good : n = 0 → sv = true → psk = true → ReadsExt n bs sv psk (.stop .good)
  | bad : ReadsExt n bs sv psk (.stop .bad)
  | version : 6 ≤ n → beNat (bs.take 2) = 0x002b → beNat ((bs.drop 2).take 2) = 2 → bs.getD 4 0 = 0x03 → bs.getD 5 0 = 0x04 →
      ReadsExt n bs sv psk (.goOn 6 true psk)
  | identity : 6 ≤ n → beNat (bs.take 2) = 0x0029 → beNat ((bs.drop 2).take 2) = 2 → beNat ((bs.drop 4).take 2) = 0 →
      ReadsExt n bs sv psk (.goOn 6 sv true)
  | other : 4 + beNat ((bs.drop 2).take 2) ≤ n → ReadsExt n bs sv psk (.goOn (4 + beNat ((bs.drop 2).take 2)) sv psk)

lemma readsExt (sv psk : Bool) (h : n ≤ bs.length) : ReadsExt n bs sv psk (readExt n bs sv psk) := by
  unfold readExt readHeader
  refine iteInduction (fun h0 => ?_) fun _ => iteInduction (fun _ => .bad) fun h4 => ?_
  · by_cases hfound : sv = true ∧ psk = true
    · rw [if_pos hfound]
      exact .good h0 hfound.1 hfound.2
    · rw [if_neg hfound]
      exact .bad
  rw [if_neg (by omega)]
  refine iteInduction (fun _ => .bad) fun _ => iteInduction (fun hsv => ?_) fun _ => iteInduction (fun hpsk => ?_) fun _ =>
    .other (by omega)
  · refine iteInduction (fun _ => .bad) fun h2 => ?_
    rw [if_neg (by omega)]
    refine iteInduction (fun _ => .bad) fun hmajor => ?_
    rw [if_neg (by omega)]
    refine iteInduction (fun _ => .bad) fun hminor => ?_
    exact .version (by omega) hsv (not_not.1 h2) (not_not.1 hmajor) (not_not.1 hminor)
  · refine iteInduction (fun _ => .bad) fun h2 => ?_
    rw [if_neg (by omega)]
    exact iteInduction (fun _ => .bad) fun hid => .identity (by omega) hpsk (not_not.1 h2) (not_not.1 hid)

lemma readExts_of_le (fuel : ℕ) (h : n ≤ bs.length) : readExts fuel n bs sv psk ≠ .short := by
  induction fuel generalizing n bs sv psk with
  | zero => simp [readExts]
  | succ fuel ih =>
    have hnext : ∀ k sv psk, k ≤ n → readExts fuel (n - k) (bs.drop k) sv psk ≠ .short := by
      intro k sv psk hk
      exact ih (by rw [length_drop]; omega)
    have hstep := readsExt sv psk h
    unfold readExts
    generalize readExt n bs sv psk = x at hstep
    cases hstep with
    | good => simp
    | bad => simp
    | version hn | identity hn => exact hnext 6 _ _ hn
    | other hn => exact hnext _ _ _ hn

lemma readExtVec_cases (h : n ≤ bs.length) : readExtVec n bs = .bad ∨ (2 + beNat (bs.take 2) ≤ n ∧
    readExtVec n bs = readExts (beNat (bs.take 2) + 1) (beNat (bs.take 2)) (bs.drop 2) false false) := by
  unfold readExtVec
  by_cases h2 : n < 2
  · exact .inl (if_pos h2)
  rw [if_neg h2, if_neg (by omega)]
  by_cases hext : n < 2 + beNat (bs.take 2)
  · exact .inl (if_pos hext)
  · exact .inr ⟨by omega, if_neg hext⟩

lemma readCompression_cases (h : n ≤ bs.length) : readCompression n bs = .bad ∨ (1 ≤ n ∧ bs.getD 0 0 = 0x00 ∧
    readCompression n bs = readExtVec (n - 1) (bs.drop 1)) := by
  unfold readCompression
  by_cases h1 : n < 1
  · exact .inl (if_pos h1)
  rw [if_neg h1, if_neg (by omega)]
  by_cases hzero : bs.getD 0 0 ≠ 0x00
  · exact .inl (if_pos hzero)
  · exact .inr ⟨by omega, not_not.1 hzero, if_neg hzero⟩

lemma readSuite_cases {suite : ℕ} (h : n ≤ bs.length) : readSuite suite n bs = .bad ∨ (2 ≤ n ∧ beNat (bs.take 2) = suite ∧
    readSuite suite n bs = readCompression (n - 2) (bs.drop 2)) := by
  unfold readSuite
  by_cases h2 : n < 2
  · exact .inl (if_pos h2)
  rw [if_neg h2, if_neg (by omega)]
  by_cases hsuite : beNat (bs.take 2) ≠ suite
  · exact .inl (if_pos hsuite)
  · exact .inr ⟨by omega, not_not.1 hsuite, if_neg hsuite⟩

lemma readHello_cases {suite : ℕ} (h : n ≤ bs.length) : readHello suite n bs = .bad ∨
    ∃ sid extLen : ℕ, (bs.getD 0 0).toNat = sid ∧ beNat ((bs.drop (4 + sid)).take 2) = extLen ∧ 6 + sid + extLen ≤ n ∧
      beNat ((bs.drop (1 + sid)).take 2) = suite ∧ bs.getD (3 + sid) 0 = 0x00 ∧
      readHello suite n bs = readExts (extLen + 1) extLen (bs.drop (6 + sid)) false false := by
  unfold readHello
  by_cases h1 : n < 1
  · exact .inl (if_pos h1)
  rw [if_neg h1, if_neg (by omega)]
  generalize (bs.getD 0 0).toNat = sid
  by_cases hsid : n < 1 + sid
  · exact .inl (if_pos hsid)
  rw [if_neg hsid]
  rcases @readSuite_cases (n - (1 + sid)) (bs.drop (1 + sid)) suite (by rw [length_drop]; omega) with
    hbad | ⟨h2, hsuite, heq⟩
  · exact .inl hbad
  rcases @readCompression_cases (n - (1 + sid) - 2) ((bs.drop (1 + sid)).drop 2)
    (by rw [length_drop, length_drop]; omega) with hbad | ⟨h3, hzero, heq'⟩
  · exact .inl (heq.trans hbad)
  rcases @readExtVec_cases (n - (1 + sid) - 2 - 1) (((bs.drop (1 + sid)).drop 2).drop 1)
    (by rw [length_drop, length_drop, length_drop]; omega) with hbad | ⟨h4, heq''⟩
  · exact .inl (heq.trans (heq'.trans hbad))
  rw [drop_drop, drop_drop, show 1 + sid + 2 + 1 = 4 + sid by omega] at h4 heq''
  refine .inr ⟨sid, _, rfl, rfl, by omega, hsuite, ?_, ?_⟩
  · rw [drop_drop, getD_eq_getElem?_getD, getElem?_drop] at hzero
    rw [getD_eq_getElem?_getD, ← hzero]
    congr 2
    omega
  · rw [heq, heq', drop_drop, drop_drop, show 1 + sid + 2 + 1 = 4 + sid by omega, heq'', drop_drop,
      show 4 + sid + 2 = 6 + sid by omega]

lemma readHello_of_le {suite : ℕ} (h : n ≤ bs.length) : readHello suite n bs ≠ .short := by
  rcases readHello_cases h with hbad | ⟨sid, extLen, -, -, hle, -, -, heq⟩
  · rw [hbad]
    simp
  · rw [heq]
    exact readExts_of_le _ (by rw [length_drop]; omega)

lemma take_extension (h : 4 + beNat ((bs.drop 2).take 2) ≤ bs.length) : bs.take (4 + beNat ((bs.drop 2).take 2)) =
      (Extension.mk (beNat (bs.take 2)) ((bs.drop 4).take (beNat ((bs.drop 2).take 2)))).bytes := by
  generalize hlen : beNat ((bs.drop 2).take 2) = len at h ⊢
  have htype : be 2 (beNat (bs.take 2)) = bs.take 2 := by
    have := be_beNat (bs.take 2)
    rwa [length_take_of_le (by omega)] at this
  have hfield : be 2 len = (bs.drop 2).take 2 := by
    have := be_beNat ((bs.drop 2).take 2)
    rwa [length_take_of_le (by rw [length_drop]; omega), hlen] at this
  have hdata : ((bs.drop 4).take len).length = len := length_take_of_le (by rw [length_drop]; omega)
  rw [bytes, vec, hdata, htype, hfield, Nat.add_comm 4 len, ← append_assoc]
  have hfour : bs.take 2 ++ (bs.drop 2).take 2 = bs.take 4 := (take_add).symm
  rw [hfour, Nat.add_comm len 4]
  exact take_add

lemma take_two {k : ℕ} (h : k + 2 ≤ bs.length) : (bs.drop k).take 2 = [bs.getD k 0, bs.getD (k + 1) 0] := by
  rw [drop_eq_getElem_cons (by omega), drop_eq_getElem_cons (by omega), getD_eq_getElem _ _ (by omega),
    getD_eq_getElem _ _ (by omega)]
  rfl

lemma readExts_good (fuel : ℕ) (h : n ≤ bs.length) (hgood : readExts fuel n bs sv psk = .good) :
    ∃ exts : List Extension, bs.take n = exts.flatMap bytes ∧ (∀ e ∈ exts, e.type < 2 ^ 16) ∧
      (sv = true ∨ ⟨0x002b, [0x03, 0x04]⟩ ∈ exts) ∧ (psk = true ∨ ⟨0x0029, [0x00, 0x00]⟩ ∈ exts) := by
  induction fuel generalizing n bs sv psk with
  | zero => simp [readExts] at hgood
  | succ fuel ih =>
    -- the extension at the front, and the ones behind it
    have hnext : ∀ sv' psk', 4 + beNat ((bs.drop 2).take 2) ≤ n →
        readExts fuel (n - (4 + beNat ((bs.drop 2).take 2))) (bs.drop (4 + beNat ((bs.drop 2).take 2))) sv' psk' = .good →
        (sv' = true → sv = true ∨ Extension.mk (beNat (bs.take 2)) ((bs.drop 4).take (beNat ((bs.drop 2).take 2))) =
          ⟨0x002b, [0x03, 0x04]⟩) →
        (psk' = true → psk = true ∨ Extension.mk (beNat (bs.take 2)) ((bs.drop 4).take (beNat ((bs.drop 2).take 2))) =
          ⟨0x0029, [0x00, 0x00]⟩) →
        ∃ exts : List Extension, bs.take n = exts.flatMap bytes ∧ (∀ e ∈ exts, e.type < 2 ^ 16) ∧
          (sv = true ∨ ⟨0x002b, [0x03, 0x04]⟩ ∈ exts) ∧ (psk = true ∨ ⟨0x0029, [0x00, 0x00]⟩ ∈ exts) := by
      intro sv' psk' hk hrest hsv hpsk
      have htake := @take_extension bs (by omega)
      have htype : beNat (bs.take 2) < 2 ^ 16 := by
        have := beNat_lt (bs.take 2)
        rwa [length_take_of_le (by omega)] at this
      generalize he : Extension.mk (beNat (bs.take 2)) ((bs.drop 4).take (beNat ((bs.drop 2).take 2))) = e at htake hsv hpsk
      have hetype : e.type < 2 ^ 16 := by rw [← he]; exact htype
      obtain ⟨exts, hbytes, htypes, hsv', hpsk'⟩ := ih (by rw [length_drop]; omega) hrest
      refine ⟨e :: exts, ?_, ?_, ?_, ?_⟩
      · rw [flatMap_cons, ← hbytes, ← htake, ← take_add, Nat.add_sub_cancel' hk]
      · intro e' he'
        rcases mem_cons.1 he' with rfl | he'
        · exact hetype
        · exact htypes e' he'
      · rcases hsv' with hsv' | hsv'
        · exact (hsv hsv').imp_right fun heq => mem_cons.2 (.inl heq.symm)
        · exact .inr (mem_cons_of_mem _ hsv')
      · rcases hpsk' with hpsk' | hpsk'
        · exact (hpsk hpsk').imp_right fun heq => mem_cons.2 (.inl heq.symm)
        · exact .inr (mem_cons_of_mem _ hpsk')
    have hstep := readsExt sv psk h
    unfold readExts at hgood
    generalize readExt n bs sv psk = x at hstep hgood
    cases hstep with
    | good hn hsv hpsk => exact ⟨[], by simp [hn], by simp, .inl hsv, .inl hpsk⟩
    | bad => simp at hgood
    | version hn htype hlen hmajor hminor =>
      have hdata : (bs.drop 4).take 2 = [0x03, 0x04] := by
        rw [← hmajor, ← hminor]
        exact take_two (by omega)
      refine hnext true psk (by omega) (by rw [hlen]; exact hgood) (fun _ => .inr ?_) .inl
      rw [htype, hlen, hdata]
    | identity hn htype hlen hid =>
      have hdata : (bs.drop 4).take 2 = [0x00, 0x00] := by
        have hbe := be_beNat ((bs.drop 4).take 2)
        rw [hid, length_take_of_le (by rw [length_drop]; omega)] at hbe
        exact hbe.symm
      refine hnext sv true (by omega) (by rw [hlen]; exact hgood) .inl (fun _ => .inr ?_)
      rw [htype, hlen, hdata]
    | other hn => exact hnext sv psk hn hgood .inl .inl

end Grammar

/-! ### ServerHello messages -/

structure ServerHello where
  random : Arr 32
  sessionId : Bytes
  suite : ℕ
  compression : UInt8
  exts : List Extension
  sessionId_le : sessionId.length ≤ 32
  suite_lt : suite < 2 ^ 16
  type_lt : ∀ e ∈ exts, e.type < 2 ^ 16
  exts_lt : (exts.flatMap Extension.bytes).length < 2 ^ 16

namespace ServerHello

def bytes (h : ServerHello) : Bytes :=
  0x02 :: vec 3 ([0x03, 0x03] ++ h.random.val ++ vec 1 h.sessionId ++ be 2 h.suite ++ [h.compression] ++
    vec 2 (h.exts.flatMap Extension.bytes))

/-- It selects the cipher suite, null compression, TLS 1.3 and the first identity. -/
structure Selects (h : ServerHello) (suite : ℕ) : Prop where
  suite : h.suite = suite
  compression : h.compression = 0x00
  version : ⟨0x002b, [0x03, 0x04]⟩ ∈ h.exts
  identity : ⟨0x0029, [0x00, 0x00]⟩ ∈ h.exts

end ServerHello

section Messages

variable {data : Mem}

lemma read_be16 (data : Mem) (a : ℕ) : data.read a 2 = be 2 (be16At data a) := by
  have hlt : (data (a + 1)).toNat < 256 := (data (a + 1)).toNat_lt
  have hdiv : be16At data a / 256 = (data a).toNat := by unfold be16At; omega
  have hmod : UInt8.ofNat (be16At data a) = data (a + 1) := by
    rw [← UInt8.toNat_inj, UInt8.toNat_ofNat']
    unfold be16At
    omega
  simp [be, hdiv, hmod, Mem.read, range_succ]

lemma read_be24 (data : Mem) (a : ℕ) : data.read a 3 = be 3 (be24At data a) := by
  have h2 : (data (a + 2)).toNat < 256 := (data (a + 2)).toNat_lt
  have hdiv : be24At data a / 256 = be16At data a := by unfold be24At be16At; omega
  have hmod : UInt8.ofNat (be24At data a) = data (a + 2) := by
    rw [← UInt8.toNat_inj, UInt8.toNat_ofNat']
    unfold be24At
    omega
  have hbe : be 3 (be24At data a) = be 2 (be24At data a / 256) ++ [UInt8.ofNat (be24At data a)] := rfl
  rw [hbe, hdiv, hmod, ← read_be16]
  exact read_add data a 2 1

lemma be16At_lt (data : Mem) (a : ℕ) : be16At data a < 2 ^ 16 := by
  have h0 : (data a).toNat < 256 := (data a).toNat_lt
  have h1 : (data (a + 1)).toNat < 256 := (data (a + 1)).toNat_lt
  unfold be16At
  omega

lemma be24At_lt (data : Mem) (a : ℕ) : be24At data a < 2 ^ 24 := by
  have h0 : (data a).toNat < 256 := (data a).toNat_lt
  have h1 : (data (a + 1)).toNat < 256 := (data (a + 1)).toNat_lt
  have h2 : (data (a + 2)).toNat < 256 := (data (a + 2)).toNat_lt
  unfold be24At
  omega

lemma be16At_of_read {a n : ℕ} (hn : n < 2 ^ 16) (h : data.read a 2 = be 2 n) : be16At data a = n :=
  be_inj (be16At_lt data a) hn (by rw [← h, read_be16])

lemma read_message (data : Mem) (sid ext : ℕ) : data.read 0 (44 + sid + ext) =
    data.read 0 1 ++ (data.read 1 3 ++ (data.read 4 2 ++ (data.read 6 32 ++ (data.read 38 1 ++ (data.read 39 sid ++
      (data.read (39 + sid) 2 ++ (data.read (41 + sid) 1 ++ (data.read (42 + sid) 2 ++ data.read (44 + sid) ext)))))))) := by
  have hsplit : ∀ a b n k m, b = a + n → m = n + k → data.read a m = data.read a n ++ data.read b k := by
    rintro a b n k m rfl rfl
    exact read_add data a n k
  rw [hsplit 0 1 1 (43 + sid + ext) _ rfl (by omega), hsplit 1 4 3 (40 + sid + ext) _ rfl (by omega),
    hsplit 4 6 2 (38 + sid + ext) _ rfl (by omega), hsplit 6 38 32 (6 + sid + ext) _ rfl (by omega),
    hsplit 38 39 1 (5 + sid + ext) _ rfl (by omega), hsplit 39 (39 + sid) sid (5 + ext) _ rfl (by omega),
    hsplit (39 + sid) (41 + sid) 2 (3 + ext) _ (by omega) (by omega),
    hsplit (41 + sid) (42 + sid) 1 (2 + ext) _ (by omega) (by omega),
    hsplit (42 + sid) (44 + sid) 2 ext _ (by omega) (by omega)]

def sessionIdLen (data : Mem) : ℕ := (data 38).toNat

def extensionsLen (data : Mem) : ℕ := be16At data (42 + sessionIdLen data)

lemma serverHello_of_good {suite : ℕ} (h0 : data 0 = 0x02) (h4 : data 4 = 0x03) (h5 : data 5 = 0x03)
    (hsid : sessionIdLen data ≤ 32) (hend : 4 + be24At data 1 = 44 + sessionIdLen data + extensionsLen data)
    (hgood : readHello suite (4 + be24At data 1 - 38) (bytesFrom data (4 + be24At data 1) 38) = .good) :
    ∃ h : ServerHello, data.read 0 (4 + be24At data 1) = h.bytes ∧ h.Selects suite := by
  rcases @readHello_cases (4 + be24At data 1 - 38) (bytesFrom data (4 + be24At data 1) 38) suite
    (by rw [length_bytesFrom]) with hbad | ⟨sid, extLen, hs, he, hle, hsuite, hzero, heq⟩
  · rw [hbad] at hgood
    exact absurd hgood (by simp)
  have hsid' : sid = sessionIdLen data := by
    rw [← hs, getD_bytesFrom (by omega)]
    rfl
  subst hsid'
  rw [drop_bytesFrom, beNat_bytesFrom (by omega), show 38 + (4 + sessionIdLen data) = 42 + sessionIdLen data by omega] at he
  have hext : extLen = extensionsLen data := he.symm
  subst hext
  rw [drop_bytesFrom, beNat_bytesFrom (by omega), show 38 + (1 + sessionIdLen data) = 39 + sessionIdLen data by omega] at hsuite
  rw [getD_bytesFrom (by omega), show 38 + (3 + sessionIdLen data) = 41 + sessionIdLen data by omega] at hzero
  rw [heq, drop_bytesFrom, show 38 + (6 + sessionIdLen data) = 44 + sessionIdLen data by omega] at hgood
  obtain ⟨exts, hexts, htypes, hversion, hidentity⟩ := readExts_good _ (by rw [length_bytesFrom]; omega) hgood
  have hall : (bytesFrom data (4 + be24At data 1) (44 + sessionIdLen data)).take (extensionsLen data) =
      data.read (44 + sessionIdLen data) (extensionsLen data) := by
    rw [take_of_length_le (by rw [length_bytesFrom]; omega), bytesFrom, hend, Nat.add_sub_cancel_left]
  rw [hall] at hexts
  have hextsLen : (exts.flatMap bytes).length = extensionsLen data := by rw [← hexts, length_read]
  have hextLt : extensionsLen data < 2 ^ 16 := be16At_lt ..
  refine ⟨⟨⟨data.read 6 32, length_read ..⟩, data.read 39 (sessionIdLen data), be16At data (39 + sessionIdLen data),
    data (41 + sessionIdLen data), exts, by rw [length_read]; exact hsid, be16At_lt .., htypes,
    by rw [hextsLen]; exact hextLt⟩, ?_, hsuite, hzero, hversion.resolve_left (by simp), hidentity.resolve_left (by simp)⟩
  have hone : ∀ a, data.read a 1 = [data a] := fun a => rfl
  have hver : data.read 4 2 = [0x03, 0x03] := by
    rw [show data.read 4 2 = [data 4, data 5] from rfl, h4, h5]
  have hbyte : be 1 (sessionIdLen data) = [data 38] := by
    simp [be, sessionIdLen]
  rw [hend, read_message, ServerHello.bytes]
  simp only [vec, length_append, length_read, length_be, length_cons, length_nil, hextsLen]
  have hlen : 0 + 1 + 1 + 32 + (1 + sessionIdLen data) + 2 + (0 + 1) + (2 + extensionsLen data) = be24At data 1 := by omega
  rw [hlen, ← read_be24, ← read_be16, ← hexts, hone 0, h0, hbyte, hver, read_be16 data (42 + sessionIdLen data)]
  simp only [append_assoc, cons_append, nil_append]
  rfl

lemma ServerHello.lengths {h : ServerHello} (hread : data.read 0 (4 + be24At data 1) = h.bytes) :
    sessionIdLen data ≤ 32 ∧ 4 + be24At data 1 = 44 + sessionIdLen data + extensionsLen data := by
  have hsid := h.sessionId_le
  have hparts : ∃ L, h.bytes = (0x02 :: be 3 L ++ [0x03, 0x03] ++ h.random.val) ++ (be 1 h.sessionId.length ++
      ((h.sessionId ++ be 2 h.suite ++ [h.compression]) ++ (be 2 (h.exts.flatMap Extension.bytes).length ++
        h.exts.flatMap Extension.bytes))) := by
    refine ⟨([0x03, 0x03] ++ h.random.val ++ vec 1 h.sessionId ++ be 2 h.suite ++ [h.compression] ++
      vec 2 (h.exts.flatMap Extension.bytes)).length, ?_⟩
    simp only [ServerHello.bytes, vec, append_assoc, cons_append]
  obtain ⟨L, hbytes⟩ := hparts
  have hlt := h.exts_lt
  generalize h.exts.flatMap Extension.bytes = exts at hbytes hlt
  have hlen := congrArg List.length (hread.trans hbytes)
  simp only [length_read, length_append, length_cons, length_be, length_nil, h.random.property] at hlen
  rw [hbytes] at hread
  obtain ⟨-, hrest⟩ := read_append _ _ hread
  have hfront : (0x02 :: be 3 L ++ [0x03, 0x03] ++ h.random.val).length = 38 := by simp [h.random.property]
  rw [hfront] at hrest
  obtain ⟨hone, hrest⟩ := read_append _ _ hrest
  have hsl : sessionIdLen data = h.sessionId.length := by
    have hbyte : data 38 = UInt8.ofNat h.sessionId.length := (List.cons.inj hone).1
    rw [sessionIdLen, hbyte, UInt8.toNat_ofNat']
    omega
  obtain ⟨-, hrest⟩ := read_append _ _ hrest
  obtain ⟨htwo, -⟩ := read_append _ _ hrest
  have hmid : (h.sessionId ++ be 2 h.suite ++ [h.compression]).length = h.sessionId.length + 3 := by simp
  have hext : extensionsLen data = exts.length := by
    rw [length_be] at htwo
    refine be16At_of_read hlt ?_
    rw [← htwo]
    congr 1
    omega
  omega

end Messages

/-! ### The calls of `tls_process_record` -/

/-- A call of `tls_recv_server_hello`: the context, the memory from the message on, and how many bytes of the record are left. -/
structure HelloArgs where
  ctx : HsCtx
  data : Mem
  avail : ℕ

namespace HelloArgs

variable (c : HelloArgs)

def msgLen : ℕ := 4 + be24At c.data 1

def dataLen : ℕ := uadd 4 (be24At c.data 1)

def inside : ℕ := min c.msgLen c.avail

def run : RecvCall := tlsRecvServerHello c.ctx c.data c.dataLen

/-- A call that `tls_process_record` makes: the end of the message, in 24 bits, is not behind the record. -/
structure Made (recordLen offset : ℕ) : Prop where
  record : recordLen < 2 ^ 16
  header : offset + 4 ≤ recordLen
  avail : c.avail = recordLen - offset
  type : c.data 0 = 0x02
  fits : uadd (offset + 4) (be24At c.data 1) ≤ recordLen

/-- What is asked of a call: it reads only bytes of the message, it returns true only for a ServerHello, and when it
returns false the transcript, the server random and the keys are as before. -/
structure Good : Prop where
  reads : c.run.reach ≤ c.inside
  accepts : c.run.ok = true → ∃ h : ServerHello, c.data.read 0 c.msgLen = h.bytes ∧ h.Selects c.ctx.cipherSuite
  unchanged : c.run.ok = false → c.run.ctx.transcript = c.ctx.transcript ∧ c.run.ctx.serverRandom = c.ctx.serverRandom ∧
    c.run.ctx.keys = c.ctx.keys

def verdict : Verdict := readHello c.ctx.cipherSuite (c.dataLen - 38) (bytesFrom c.data c.inside 38)

/-- When a call is good: the state is wrong, the message is refused for its version or its length before the server random is
copied, it is a ServerHello without a byte left, or it is refused later on with the random that was there. -/
def Safe : Prop :=
  c.ctx.state ≠ .clientHelloSent ∨ (5 ≤ c.inside ∧ c.data 4 ≠ 0x03) ∨ (6 ≤ c.inside ∧ (c.data 5 ≠ 0x03 ∨ c.dataLen < 38)) ∨
    (38 ≤ c.inside ∧
      ((c.verdict = .good ∧ sessionIdLen c.data ≤ 32 ∧ c.dataLen = 44 + sessionIdLen c.data + extensionsLen c.data) ∨
        (c.verdict = .bad ∧ c.data.read 6 32 = c.ctx.serverRandom.val)))

variable {c} {recordLen offset : ℕ}

lemma Made.cases (h : c.Made recordLen offset) :
    (c.inside = c.dataLen ∧ c.msgLen = c.dataLen ∧ 4 ≤ c.inside) ∨ (4 ≤ c.inside ∧ (c.dataLen < 38 ∨ c.inside < c.dataLen) ∧
      2 ^ 17 ≤ c.msgLen ∧ (38 ≤ c.dataLen → c.msgLen = c.dataLen)) := by
  have hlt := be24At_lt c.data 1
  have hfits := h.fits
  have hrec := h.record
  have hhead := h.header
  have havail := h.avail
  unfold inside msgLen dataLen uadd uintRange at *
  by_cases hwrap : offset + 4 + be24At c.data 1 < 2 ^ 24
  · omega
  · omega

lemma good_early {k : ℕ} (h : c.run = .error c.ctx k 0) : c.Good ↔ k ≤ c.inside := by
  refine ⟨fun hg => ?_, fun hle => ⟨by rw [h]; exact hle, by simp [h, RecvCall.error], fun _ => by rw [h]; exact ⟨rfl, rfl, rfl⟩⟩⟩
  have hreads := hg.reads
  rwa [h] at hreads

def randomised (c : HelloArgs) : HsCtx := { c.ctx with serverRandom := .ofBytes 32 (c.data.read 6 32) }

lemma serverRandom_randomised : c.randomised.serverRandom = c.ctx.serverRandom ↔ c.data.read 6 32 = c.ctx.serverRandom.val := by
  rw [← Subtype.val_inj]
  unfold randomised
  rw [Arr.val_ofBytes (length_read ..)]

lemma run_late (h : c.Made recordLen offset) (hstate : c.ctx.state = .clientHelloSent) (h4 : c.data 4 = 0x03)
    (h5 : c.data 5 = 0x03) (h38 : ¬ c.dataLen < 38) : c.run = recvSessionId c.randomised c.data c.dataLen := by
  unfold run tlsRecvServerHello
  rw [if_neg (by simp [hstate]), if_neg (by simp [h.type])]
  rw [if_neg (by simp [dataLen]), if_neg (by simp [h4]), if_neg (by simp [h5])]
  exact if_neg h38

lemma run_version (h : c.Made recordLen offset) (hstate : c.ctx.state = .clientHelloSent) :
    (c.data 4 ≠ 0x03 → c.run = .error c.ctx 5 0) ∧
      (c.data 4 = 0x03 → c.data 5 ≠ 0x03 ∨ c.dataLen < 38 → c.run = .error c.ctx 6 0) := by
  unfold run tlsRecvServerHello
  rw [if_neg (by simp [hstate]), if_neg (by simp [h.type])]
  rw [if_neg (by simp [dataLen])]
  refine ⟨fun h4 => if_pos h4, fun h4 hor => ?_⟩
  rw [if_neg (by simp [h4])]
  by_cases h5 : c.data 5 ≠ 0x03
  · exact if_pos h5
  · rw [if_neg h5]
    exact if_pos (hor.resolve_left h5)

lemma good_late (h : c.Made recordLen offset) (hstate : c.ctx.state = .clientHelloSent) (h0 : c.data 0 = 0x02)
    (h4 : c.data 4 = 0x03) (h5 : c.data 5 = 0x03) (h38 : ¬ c.dataLen < 38) :
    c.Good ↔ 38 ≤ c.inside ∧
      ((c.verdict = .good ∧ sessionIdLen c.data ≤ 32 ∧ c.dataLen = 44 + sessionIdLen c.data + extensionsLen c.data) ∨
        (c.verdict = .bad ∧ c.data.read 6 32 = c.ctx.serverRandom.val)) := by
  have hrun := run_late h hstate h4 h5 h38
  have hlen : c.msgLen = c.dataLen := by
    rcases h.cases with ⟨-, hlen, -⟩ | ⟨-, -, -, hlen⟩
    · exact hlen
    · exact hlen (by omega)
  constructor
  · intro hg
    have hinside : 38 ≤ c.inside := by
      have hreads := hg.reads
      rw [hrun] at hreads
      exact le_trans recvSessionId_reach hreads
    have hsim := @recvSessionId_sim c.data c.inside c.randomised c.dataLen hinside
    rw [← hrun] at hsim
    refine ⟨hinside, ?_⟩
    cases hv : c.verdict with
    | good =>
      obtain ⟨hello, hread, -⟩ := hg.accepts (hsim.good hv).1
      obtain ⟨hsid, hend⟩ := ServerHello.lengths hread
      exact .inl ⟨rfl, hsid, hlen ▸ hend⟩
    | bad =>
      obtain ⟨hok, -, hctx⟩ := hsim.bad hv
      have hrandom := (hg.unchanged hok).2.1
      rw [hctx] at hrandom
      exact .inr ⟨rfl, serverRandom_randomised.1 hrandom⟩
    | short =>
      exfalso
      rcases h.cases with ⟨heq, -⟩ | ⟨-, hlt, -⟩
      · exact readHello_of_le (by rw [length_bytesFrom, heq]) hv
      · exact absurd hg.reads (Nat.not_le.2 (hsim.short hv (hlt.resolve_left h38)))
  · rintro ⟨hinside, hor⟩
    have hsim := @recvSessionId_sim c.data c.inside c.randomised c.dataLen hinside
    rw [← hrun] at hsim
    rcases hor with ⟨hv, hsid, hend⟩ | ⟨hv, hrandom⟩
    · have hext : extensionsLen c.data < 2 ^ 16 := be16At_lt ..
      have hin : c.inside = c.dataLen := by
        rcases h.cases with ⟨heq, -⟩ | ⟨-, -, hbig, -⟩
        · exact heq
        · omega
      obtain ⟨hok, hreach, -⟩ := hsim.good hv
      refine ⟨by rw [hin]; exact hreach, fun _ => ?_, fun hno => absurd (hok.symm.trans hno) (by simp)⟩
      have hgood : readHello c.ctx.cipherSuite (c.msgLen - 38) (bytesFrom c.data c.msgLen 38) = .good := by
        rw [hlen, ← hv, verdict, hin]
      exact serverHello_of_good h0 h4 h5 hsid (hlen.trans hend) hgood
    · obtain ⟨hok, hreach, hctx⟩ := hsim.bad hv
      refine ⟨hreach, fun hyes => absurd (hok.symm.trans hyes) (by simp), fun _ => ?_⟩
      rw [hctx]
      exact ⟨rfl, serverRandom_randomised.2 hrandom, rfl⟩

/-- **When a ServerHello is parsed as it should be**, among the calls that `tls_process_record` makes. -/
theorem serverHello_good_iff (c : HelloArgs) (recordLen offset : ℕ) (h : c.Made recordLen offset) : c.Good ↔ c.Safe := by
  by_cases hstate : c.ctx.state ≠ .clientHelloSent
  · have hrun : c.run = ⟨false, c.ctx, 0, 0⟩ := if_pos hstate
    exact iff_of_true ⟨by rw [hrun]; exact Nat.zero_le _, by simp [hrun], fun _ => by rw [hrun]; exact ⟨rfl, rfl, rfl⟩⟩ (.inl hstate)
  have hsent := not_not.1 hstate
  obtain ⟨hver4, hver5⟩ := run_version h hsent
  by_cases h4 : c.data 4 ≠ 0x03
  · rw [good_early (hver4 h4)]
    refine ⟨fun hin => .inr (.inl ⟨hin, h4⟩), fun hsafe => ?_⟩
    rcases hsafe with hs | ⟨hin, -⟩ | ⟨hin, -⟩ | ⟨hin, -⟩
    · exact absurd hs hstate
    all_goals omega
  have h4 := not_not.1 h4
  by_cases h5 : c.data 5 ≠ 0x03 ∨ c.dataLen < 38
  · rw [good_early (hver5 h4 h5)]
    refine ⟨fun hin => .inr (.inr (.inl ⟨hin, h5⟩)), fun hsafe => ?_⟩
    rcases hsafe with hs | ⟨-, hne⟩ | ⟨hin, -⟩ | ⟨hin, -⟩
    · exact absurd hs hstate
    · exact absurd h4 hne
    all_goals omega
  obtain ⟨hfive, h38⟩ := not_or.1 h5
  rw [good_late h hsent h.type h4 (not_not.1 hfive) h38]
  constructor
  · exact fun hlate => .inr (.inr (.inr hlate))
  · rintro (hs | ⟨-, hne⟩ | ⟨-, hor⟩ | hlate)
    · exact absurd hs hstate
    · exact absurd h4 hne
    · exact absurd hor h5
    · exact hlate

def alone (msg : Bytes) : HelloArgs := ⟨{ zeroClient 0 with state := .clientHelloSent }, Mem.ofBytes msg, msg.length⟩

def helloMessage (suite extensions : Bytes) : Bytes :=
  0x02 :: vec 3 ([0x03, 0x03] ++ List.replicate 32 1 ++ [0x00] ++ suite ++ [0x00] ++ extensions)

def bothExtensions : Bytes :=
  [0x00, 0x0c, 0x00, 0x2b, 0x00, 0x02, 0x03, 0x04, 0x00, 0x29, 0x00, 0x02, 0x00, 0x00]

theorem serverHello_good_complete : (alone (helloMessage [0x13, 0x01] bothExtensions)).Good :=
  (serverHello_good_iff _ 56 0 ⟨by decide, by decide, by decide +kernel, by decide +kernel, by decide +kernel⟩).2
    (.inr (.inr (.inr ⟨by decide +kernel, .inl ⟨by decide +kernel, by decide +kernel, by decide +kernel⟩⟩)))

/-- A message without a body is read behind its end; one with a byte behind the extensions is accepted; and one with
another cipher suite is refused, but its random has been copied. -/
theorem serverHello_flaws : ((alone [0x02, 0x00, 0x00, 0x00]).Made 4 0 ∧
      (alone [0x02, 0x00, 0x00, 0x00]).inside < (alone [0x02, 0x00, 0x00, 0x00]).run.reach) ∧
    ((alone (helloMessage [0x13, 0x01] (bothExtensions ++ [0x00]))).Made 57 0 ∧
      (alone (helloMessage [0x13, 0x01] (bothExtensions ++ [0x00]))).run.ok = true ∧
      ¬ ∃ h : ServerHello, (alone (helloMessage [0x13, 0x01] (bothExtensions ++ [0x00]))).data.read 0 57 = h.bytes) ∧
    ((alone (helloMessage [0x13, 0x02] bothExtensions)).Made 56 0 ∧
      (alone (helloMessage [0x13, 0x02] bothExtensions)).run.ok = false ∧
      (alone (helloMessage [0x13, 0x02] bothExtensions)).ctx.serverRandom = .zero 32 ∧
      (alone (helloMessage [0x13, 0x02] bothExtensions)).run.ctx.serverRandom = .ofBytes 32 (List.replicate 32 1)) := by
  refine ⟨⟨⟨by decide, by decide, by decide, by decide, by decide⟩, by decide +kernel⟩,
    ⟨⟨by decide, by decide, by decide +kernel, by decide +kernel, by decide +kernel⟩, by decide +kernel, ?_⟩,
    ⟨by decide, by decide, by decide +kernel, by decide +kernel, by decide +kernel⟩, by decide +kernel, rfl, by decide +kernel⟩
  rintro ⟨h, hread⟩
  have hend := (ServerHello.lengths hread).2
  revert hend
  decide +kernel

end HelloArgs

end LwftpCe.Tls
