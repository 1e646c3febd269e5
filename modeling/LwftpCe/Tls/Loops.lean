import LwftpCe.Tls.ServerHello
import Mathlib.Data.Fintype.Prod

/-!
# Does a record get processed?

The loops of `tls_process_record`.  The loop over the extensions ends.  The loop over a certificate list does not where
the list has a byte.  The loop over the messages follows their lengths from one message to the next, with sums in 24 bits,
so that the next message can be an earlier one.
-/

namespace LwftpCe.Tls

open Lib Relation Scan Finset

variable {ctx : HsCtx} {data : Mem} {dataLen : ℕ}

/-! ### ServerHello -/

section ServerHello

variable {data : Mem} {ctx : HsCtx} {n : ℕ}

/-- A message of `n` bytes that `tls_recv_server_hello` accepts. -/
structure HelloAccepted (suite : ℕ) (data : Mem) (n : ℕ) : Prop where
  major : data 4 = 0x03
  minor : data 5 = 0x03
  long : 38 ≤ n
  good : readHello suite (n - 38) (bytesFrom data n 38) = .good

def HsCtx.withHello (ctx : HsCtx) (data : Mem) (n : ℕ) : HsCtx :=
  { ctx with
    serverRandom := .ofBytes 32 (data.read 6 32)
    transcript := ctx.transcript.map (· ++ data.read 0 n)
    state := .serverHelloReceived }

lemma recvServerHello_eq (hstate : ctx.state = .clientHelloSent) (h0 : data 0 = 0x02)
    (hn : n = uadd 4 (be24At data 1)) : tlsRecvServerHello ctx data n =
      if data 4 ≠ 0x03 then .error ctx 5 0
      else if data 5 ≠ 0x03 then .error ctx 6 0
      else if 38 > n then .error ctx 6 0
      else recvSessionId { ctx with serverRandom := .ofBytes 32 (data.read 6 32) } data n := by
  unfold tlsRecvServerHello
  rw [if_neg (by simp [hstate]), if_neg (by simp [h0])]
  dsimp only
  rw [← hn, if_neg (lt_irrefl n)]

lemma recvServerHello_accepts (hstate : ctx.state = .clientHelloSent) (h0 : data 0 = 0x02)
    (hn : n = uadd 4 (be24At data 1)) (h : HelloAccepted ctx.cipherSuite data n) :
    (tlsRecvServerHello ctx data n).ok = true ∧ (tlsRecvServerHello ctx data n).ctx = ctx.withHello data n := by
  obtain ⟨h4, h5, h38, hgood⟩ := h
  rw [recvServerHello_eq hstate h0 hn, if_neg (by simp [h4]), if_neg (by simp [h5]), if_neg (by omega)]
  have hsim : RecvSim data { ctx with serverRandom := .ofBytes 32 (data.read 6 32) } n n _ _ := recvSessionId_sim h38
  obtain ⟨hok, -, hctx⟩ := hsim.good hgood
  exact ⟨hok, hctx⟩

lemma recvServerHello_refuses (h0 : data 0 = 0x02) (hn : n = uadd 4 (be24At data 1))
    (h : ¬ (ctx.state = .clientHelloSent ∧ HelloAccepted ctx.cipherSuite data n)) :
    (tlsRecvServerHello ctx data n).ok = false ∧
      (ctx.state ≠ .clientHelloSent ∧ (tlsRecvServerHello ctx data n).ctx = ctx ∨ ∃ random,
        (tlsRecvServerHello ctx data n).ctx = { ctx with serverRandom := random, state := .error }) := by
  by_cases hstate : ctx.state = .clientHelloSent
  · rw [recvServerHello_eq hstate h0 hn]
    split_ifs with h4 h5 h38
    · exact ⟨rfl, .inr ⟨_, rfl⟩⟩
    · exact ⟨rfl, .inr ⟨_, rfl⟩⟩
    · exact ⟨rfl, .inr ⟨_, rfl⟩⟩
    · have hsim : RecvSim data { ctx with serverRandom := .ofBytes 32 (data.read 6 32) } n n _ _ :=
        recvSessionId_sim (Nat.le_of_not_lt h38)
      cases hv : readHello ctx.cipherSuite (n - 38) (bytesFrom data n 38) with
      | good => exact absurd ⟨hstate, not_not.1 h4, not_not.1 h5, Nat.le_of_not_lt h38, hv⟩ h
      | bad =>
        obtain ⟨hok, -, hctx⟩ := hsim.bad hv
        exact ⟨hok, .inr ⟨_, hctx⟩⟩
      | short => exact absurd hv (readHello_of_le (by rw [length_bytesFrom]))
  · rw [tlsRecvServerHello, if_pos hstate]
    exact ⟨rfl, .inl ⟨hstate, rfl⟩⟩

lemma recvExtensions_steps (msgEnd offset : ℕ) : (recvExtensions ctx data msgEnd offset).steps ≤ 2 ^ 14 := by
  have hlt := be16At_lt data offset
  have hloop := (extensionsLoop_bounds data (offset + 2 + be16At data offset) (be16At data offset + 1)
    (offset + 2) false false (offset + 2)).2.2
  unfold recvExtensions
  dsimp only
  split_ifs
  all_goals first | exact Nat.zero_le _ | exact le_trans hloop (by omega)

lemma recvCipherSuite_steps (msgEnd offset : ℕ) : (recvCipherSuite ctx data msgEnd offset).steps ≤ 2 ^ 14 := by
  unfold recvCipherSuite recvCompression
  split_ifs
  all_goals first | exact Nat.zero_le _ | exact recvExtensions_steps ..

lemma recvSessionId_steps (msgEnd : ℕ) : (recvSessionId ctx data msgEnd).steps ≤ 2 ^ 14 := by
  unfold recvSessionId
  dsimp only
  split_ifs
  all_goals first | exact Nat.zero_le _ | exact recvCipherSuite_steps ..

lemma recvServerHello_steps (h0 : data 0 = 0x02) (hn : n = uadd 4 (be24At data 1)) :
    (tlsRecvServerHello ctx data n).steps ≤ if ctx.state = .clientHelloSent then 2 ^ 14 else 0 := by
  by_cases hstate : ctx.state = .clientHelloSent
  · rw [recvServerHello_eq hstate h0 hn]
    split_ifs
    all_goals first | exact Nat.zero_le _ | exact recvSessionId_steps ..
  · rw [tlsRecvServerHello, if_pos hstate]
    exact Nat.zero_le _

end ServerHello

/-! ### Certificates -/

section Certificate

variable {data : Mem} {dataLen fuel : ℕ}

def chainLen (data : Mem) : ℕ := be24At data (5 + (data 4).toNat)

/-- A Certificate message that does no harm: one that is refused, or an empty list, where what is read lies inside. -/
def CertSafe (data : Mem) (dataLen : ℕ) : Prop :=
  dataLen < 4 ∨ (5 ≤ dataLen ∧ dataLen < 5 + (data 4).toNat) ∨
    (8 + (data 4).toNat ≤ dataLen ∧ (uadd (8 + (data 4).toNat) (chainLen data) ≠ dataLen ∨ chainLen data = 0))

instance (data : Mem) (dataLen : ℕ) : Decidable (CertSafe data dataLen) := inferInstanceAs (Decidable (_ ∨ _))

def CertAccepted (data : Mem) (dataLen : ℕ) : Prop := dataLen = 8 + (data 4).toNat ∧ chainLen data = 0

lemma certChainLoop_eq (c fuel : ℕ) : certChainLoop 0 c fuel = if c = 0 ∧ 0 < fuel then some () else none := by
  induction fuel with
  | zero => simp [certChainLoop]
  | succ fuel ih =>
    unfold certChainLoop
    rcases Nat.eq_zero_or_pos c with rfl | hc
    · simp
    · rw [if_pos hc, ih, if_neg (by omega), if_neg (by omega)]

lemma tlsRecvCertificate_eq (h0 : data 0 = 0x0b) (hlen : dataLen = uadd 4 (be24At data 1)) (h4 : ¬ dataLen < 4) :
    tlsRecvCertificate fuel data dataLen =
      if 5 + (data 4).toNat > dataLen then some ⟨false, 5⟩
      else if uadd (8 + (data 4).toNat) (chainLen data) ≠ dataLen then some ⟨false, 8 + (data 4).toNat⟩
      else if chainLen data = 0 ∧ 0 < fuel then some ⟨true, 8 + (data 4).toNat⟩ else none := by
  have hoff : 5 + (data 4).toNat + 3 = 8 + (data 4).toNat := by omega
  unfold tlsRecvCertificate
  rw [if_neg h4, if_neg (by simp [h0])]
  dsimp only
  rw [if_neg (by omega), certChainLoop_eq, hoff]
  unfold chainLen
  split_ifs <;> rfl

lemma cert_some (h0 : data 0 = 0x0b) (hlen : dataLen = uadd 4 (be24At data 1)) {r : CertCall}
    (hr : tlsRecvCertificate fuel data dataLen = some r) :
    (r.ok = true ↔ CertAccepted data dataLen) ∧ (r.reach ≤ dataLen ↔ CertSafe data dataLen) := by
  have hbyte : (data 4).toNat < 256 := (data 4).toNat_lt
  by_cases h4 : dataLen < 4
  · rw [tlsRecvCertificate, if_pos h4] at hr
    cases hr
    refine ⟨iff_of_false (by simp) ?_, iff_of_true (Nat.zero_le _) (.inl h4)⟩
    rintro ⟨heq, -⟩
    omega
  rw [tlsRecvCertificate_eq h0 hlen h4] at hr
  unfold CertAccepted CertSafe
  by_cases h5 : 5 + (data 4).toNat > dataLen
  · rw [if_pos h5] at hr
    cases hr
    dsimp only
    refine ⟨iff_of_false (by simp) (by omega), ?_⟩
    omega
  rw [if_neg h5] at hr
  by_cases hne : uadd (8 + (data 4).toNat) (chainLen data) ≠ dataLen
  · rw [if_pos hne] at hr
    cases hr
    dsimp only
    refine ⟨iff_of_false (by simp) ?_, ?_⟩
    · rintro ⟨heq, hzero⟩
      exact hne (by rw [hzero, heq]; exact uadd_of_lt (by unfold uintRange; omega))
    · omega
  rw [if_neg hne] at hr
  by_cases hzero : chainLen data = 0
  · have heq : 8 + (data 4).toNat = dataLen := by
      rw [hzero, uadd_of_lt (by unfold uintRange; omega)] at hne
      exact not_not.1 hne
    obtain ⟨-, hr⟩ := (Option.ite_none_right_eq_some ..).1 hr
    cases hr
    exact ⟨iff_of_true rfl ⟨heq.symm, hzero⟩, iff_of_true heq.le (.inr (.inr ⟨heq.le, .inr hzero⟩))⟩
  · rw [if_neg (fun h => hzero h.1)] at hr
    cases hr

lemma cert_returns (h0 : data 0 = 0x0b) (hlen : dataLen = uadd 4 (be24At data 1)) (hf : 0 < fuel)
    (h : CertSafe data dataLen) : ∃ r, tlsRecvCertificate fuel data dataLen = some r := by
  by_cases h4 : dataLen < 4
  · exact ⟨⟨false, 0⟩, if_pos h4⟩
  rw [tlsRecvCertificate_eq h0 hlen h4]
  split_ifs with h5 hne hzero
  · exact ⟨_, rfl⟩
  · exact ⟨_, rfl⟩
  · exact ⟨_, rfl⟩
  · rcases h with h | ⟨-, h⟩ | ⟨-, h⟩
    · exact absurd h h4
    · exact absurd h h5
    · exact absurd ⟨h.resolve_left hne, hf⟩ hzero

end Certificate

/-! ### From one message to the next -/

section Messages

variable (payload : Mem) (recordLen : ℕ)

def msgEnd (offset : ℕ) : ℕ := uadd (offset + 4) (be24At payload (offset + 1))

def HasMessage (offset : ℕ) : Prop := offset + 4 ≤ recordLen ∧ msgEnd payload offset ≤ recordLen

instance (offset : ℕ) : Decidable (HasMessage payload recordLen offset) := inferInstanceAs (Decidable (_ ∧ _))

def fromOffset (offset : ℕ) : Mem := fun i => payload (offset + i)

def passedLen (offset : ℕ) : ℕ := usub (msgEnd payload offset) offset

def HelloAcceptedAt (suite offset : ℕ) : Prop := HelloAccepted suite (fromOffset payload offset) (passedLen payload offset)

def CertSafeAt (offset : ℕ) : Prop :=
  HasMessage payload recordLen offset → payload offset = 0x0b → CertSafe (fromOffset payload offset) (passedLen payload offset)

/-- Where one accepted message leads: whether a ServerHello is awaited, and the offset. -/
inductive Follow (suite : ℕ) : Bool × ℕ → Bool × ℕ → Prop
  | hello {offset : ℕ} : HasMessage payload recordLen offset → payload offset = 0x02 →
      HelloAcceptedAt payload suite offset → Follow suite (true, offset) (false, msgEnd payload offset)
  | certificate {awaited : Bool} {offset : ℕ} : HasMessage payload recordLen offset → payload offset = 0x0b →
      CertAccepted (fromOffset payload offset) (passedLen payload offset) →
      Follow suite (awaited, offset) (awaited, msgEnd payload offset)
  | other {awaited : Bool} {offset : ℕ} : HasMessage payload recordLen offset → payload offset ≠ 0x02 →
      payload offset ≠ 0x0b → Follow suite (awaited, offset) (awaited, msgEnd payload offset)

variable {payload recordLen} {fuel : ℕ} {suite offset n : ℕ} {k : Bool × ℕ} {s : Scan} {r : Bool × Scan} {s' : Scan}

lemma Follow.hasMessage {k' : Bool × ℕ} (h : Follow payload recordLen suite k k') : HasMessage payload recordLen k.2 := by
  cases h <;> assumption

/-! Which step there is at an offset depends on the type of the message. -/

lemma follow_hello {suite offset : ℕ} {awaited : Bool} {k : Bool × ℕ} (hhas : HasMessage payload recordLen offset)
    (htype : payload offset = 0x02) : Follow payload recordLen suite (awaited, offset) k ↔
      (awaited = true ∧ HelloAcceptedAt payload suite offset) ∧ k = (false, msgEnd payload offset) := by
  constructor
  · intro h
    cases h with
    | hello _ _ hacc => exact ⟨⟨rfl, hacc⟩, rfl⟩
    | certificate _ hcert _ => exact absurd (htype.symm.trans hcert) (by decide)
    | other _ hne _ => exact absurd htype hne
  · rintro ⟨⟨rfl, hacc⟩, rfl⟩
    exact .hello hhas htype hacc

lemma follow_certificate {suite offset : ℕ} {awaited : Bool} {k : Bool × ℕ} (hhas : HasMessage payload recordLen offset)
    (htype : payload offset = 0x0b) : Follow payload recordLen suite (awaited, offset) k ↔
      CertAccepted (fromOffset payload offset) (passedLen payload offset) ∧ k = (awaited, msgEnd payload offset) := by
  constructor
  · intro h
    cases h with
    | hello _ hhello _ => exact absurd (htype.symm.trans hhello) (by decide)
    | certificate _ _ hacc => exact ⟨hacc, rfl⟩
    | other _ _ hne => exact absurd htype hne
  · rintro ⟨hacc, rfl⟩
    exact .certificate hhas htype hacc

lemma follow_other {awaited : Bool} (hhas : HasMessage payload recordLen offset)
    (hhello : payload offset ≠ 0x02) (hcert : payload offset ≠ 0x0b) :
    Follow payload recordLen suite (awaited, offset) k ↔ k = (awaited, msgEnd payload offset) := by
  constructor
  · intro h
    cases h with
    | hello _ htype _ => exact absurd htype hhello
    | certificate _ htype _ => exact absurd htype hcert
    | other _ _ _ => rfl
  · rintro rfl
    exact .other hhas hhello hcert

lemma passedLen_eq (offset : ℕ) (h : offset ≤ uintRange) :
    passedLen payload offset = uadd 4 (be24At (fromOffset payload offset) 1) := by
  have hle : offset ≤ offset + 4 := by omega
  have hsub : usub (uadd (offset + 4) (be24At payload (offset + 1))) offset =
      uadd (offset + 4 - offset) (be24At payload (offset + 1)) := usub_uadd hle h
  rw [Nat.add_sub_cancel_left] at hsub
  exact hsub

/-! The loop over the messages, one iteration at a time. -/

def Scan.key (s : Scan) : Bool × ℕ := (s.ctx.state = .clientHelloSent, s.offset)

def Scan.cost (s : Scan) : ℕ := s.steps + if s.ctx.state = .clientHelloSent then 2 ^ 14 else 0

def Scan.Inside (s : Scan) : Prop := ∀ p ∈ s.certs, p.1 ≤ p.2

def Next.scan : Next → Scan
  | .goOn s => s
  | .done _ s => s

def Scan.hello (s : Scan) (payload : Mem) : RecvCall :=
  tlsRecvServerHello s.ctx (fromOffset payload s.offset) (passedLen payload s.offset)

def Scan.afterHello (s : Scan) (payload : Mem) : Scan :=
  { s with ctx := (s.hello payload).ctx, steps := s.steps + 1 + (s.hello payload).steps }

def Scan.afterCert (s : Scan) (payload : Mem) (r : CertCall) : Scan :=
  { s with steps := s.steps + 1, certs := s.certs ++ [(r.reach, passedLen payload s.offset)] }

def Scan.next (s : Scan) (payload : Mem) (offset : ℕ) : Scan := { s with offset := msgEnd payload offset }

lemma messageStep_cases (fuel : ℕ) (payload : Mem) (recordLen : ℕ) (s : Scan) :
    (¬ HasMessage payload recordLen s.offset ∧ ∃ ok n, messageStep fuel payload recordLen s =
      some (.done ok { s with steps := n }) ∧ n ≤ s.steps + 1) ∨
    (HasMessage payload recordLen s.offset ∧ payload s.offset = 0x02 ∧
      messageStep fuel payload recordLen s = some (if (s.hello payload).ok then
        .goOn ((s.afterHello payload).next payload s.offset) else .done false (s.afterHello payload))) ∨
    (HasMessage payload recordLen s.offset ∧ payload s.offset = 0x0b ∧
      messageStep fuel payload recordLen s = (tlsRecvCertificate fuel (fromOffset payload s.offset)
        (passedLen payload s.offset)).map fun r => if r.ok then
          .goOn ((s.afterCert payload r).next payload s.offset) else .done false (s.afterCert payload r)) ∨
    (HasMessage payload recordLen s.offset ∧ payload s.offset ≠ 0x02 ∧ payload s.offset ≠ 0x0b ∧
      messageStep fuel payload recordLen s =
        some (.goOn (next { s with steps := s.steps + 1 } payload s.offset))) := by
  unfold messageStep
  by_cases hhead : s.offset + 4 ≤ recordLen
  · rw [if_pos hhead]
    by_cases hend : msgEnd payload s.offset > recordLen
    · exact .inl ⟨fun h => absurd h.2 (Nat.not_le.2 hend), false, s.steps + 1, if_pos hend, le_rfl⟩
    · have hhas : HasMessage payload recordLen s.offset := ⟨hhead, Nat.le_of_not_lt hend⟩
      by_cases hhello : payload s.offset = 0x02
      · refine .inr (.inl ⟨hhas, hhello, ?_⟩)
        exact (if_neg hend).trans ((if_pos hhello).trans (apply_ite some _ _ _).symm)
      by_cases hcert : payload s.offset = 0x0b
      · refine .inr (.inr (.inl ⟨hhas, hcert, ?_⟩))
        exact (if_neg hend).trans ((if_neg hhello).trans (if_pos hcert))
      · refine .inr (.inr (.inr ⟨hhas, hhello, hcert, ?_⟩))
        exact (if_neg hend).trans ((if_neg hhello).trans (if_neg hcert))
  · rw [if_neg hhead]
    exact .inl ⟨fun h => hhead h.1, _, s.steps, rfl, Nat.le_succ _⟩

lemma Scan.hello_cases (hoff : s.offset ≤ uintRange) (htype : payload s.offset = 0x02) :
    (s.ctx.state = .clientHelloSent ∧ HelloAcceptedAt payload s.ctx.cipherSuite s.offset ∧ (s.hello payload).ok = true ∧
      (s.hello payload).ctx = s.ctx.withHello (fromOffset payload s.offset) (passedLen payload s.offset)) ∨
    (¬ (s.ctx.state = .clientHelloSent ∧ HelloAcceptedAt payload s.ctx.cipherSuite s.offset) ∧
      (s.hello payload).ok = false ∧ (s.ctx.state ≠ .clientHelloSent ∧ (s.hello payload).ctx = s.ctx ∨ ∃ random,
        (s.hello payload).ctx = { s.ctx with serverRandom := random, state := .error })) := by
  have hlen : passedLen payload s.offset = _ := passedLen_eq s.offset hoff
  by_cases h : s.ctx.state = .clientHelloSent ∧ HelloAcceptedAt payload s.ctx.cipherSuite s.offset
  · exact .inl ⟨h.1, h.2, recvServerHello_accepts h.1 htype hlen h.2⟩
  · exact .inr ⟨h, recvServerHello_refuses htype hlen h⟩

lemma HasMessage.offset_le (h : HasMessage payload recordLen offset) (hR : recordLen < 2 ^ 16) : offset ≤ uintRange := by
  have := h.1
  unfold uintRange
  omega

structure StepSpec (payload : Mem) (recordLen : ℕ) (s : Scan) (x : Next) : Prop where
  suite : x.scan.ctx.cipherSuite = s.ctx.cipherSuite
  cost : x.scan.cost ≤ s.cost + 1
  inside : x.scan.Inside ↔ s.Inside ∧ CertSafeAt payload recordLen s.offset
  follow : ∀ k, Follow payload recordLen s.ctx.cipherSuite s.key k ↔ ∃ s', x = .goOn s' ∧ s'.key = k

lemma StepSpec.ofGoOn (hsuite : s'.ctx.cipherSuite = s.ctx.cipherSuite)
    (hcost : s'.cost ≤ s.cost + 1) (hin : s'.Inside ↔ s.Inside ∧ CertSafeAt payload recordLen s.offset)
    (hkey : s'.key = k) (hfollow : ∀ k', Follow payload recordLen s.ctx.cipherSuite s.key k' ↔ k' = k) :
    StepSpec payload recordLen s (.goOn s') := by
  refine ⟨hsuite, hcost, hin, fun k' => (hfollow k').trans ⟨?_, ?_⟩⟩
  · rintro rfl
    exact ⟨s', rfl, hkey⟩
  · rintro ⟨_, ⟨⟩, rfl⟩
    exact hkey

lemma StepSpec.ofDone {ok : Bool} (hsuite : s'.ctx.cipherSuite = s.ctx.cipherSuite)
    (hcost : s'.cost ≤ s.cost + 1) (hin : s'.Inside ↔ s.Inside ∧ CertSafeAt payload recordLen s.offset)
    (hfollow : ∀ k', ¬ Follow payload recordLen s.ctx.cipherSuite s.key k') :
    StepSpec payload recordLen s (.done ok s') :=
  ⟨hsuite, hcost, hin, fun k' => iff_of_false (hfollow k') (by simp)⟩

lemma CertSafeAt.of_type (h : payload offset ≠ 0x0b) : CertSafeAt payload recordLen offset :=
  fun _ htype => absurd htype h

variable (hR : recordLen < 2 ^ 16)

include hR

lemma hello_spec (hhas : HasMessage payload recordLen s.offset)
    (htype : payload s.offset = 0x02) : StepSpec payload recordLen s (if (s.hello payload).ok then
      .goOn ((s.afterHello payload).next payload s.offset) else .done false (s.afterHello payload)) := by
  have hoff := hhas.offset_le hR
  have hsafe : CertSafeAt payload recordLen s.offset := .of_type (by rw [htype]; decide)
  have hsteps : (s.hello payload).steps ≤ if s.ctx.state = .clientHelloSent then 2 ^ 14 else 0 :=
    recvServerHello_steps htype (passedLen_eq s.offset hoff)
  have hcost : (s.afterHello payload).steps ≤ s.cost + 1 := by
    simp only [afterHello, cost]
    omega
  have hfollow := fun k => @follow_hello _ _ s.ctx.cipherSuite _ (s.ctx.state = .clientHelloSent) k hhas htype
  obtain ⟨hstate, hacc, hok, hctx⟩ | ⟨hno, hok, hctx⟩ := hello_cases hoff htype
  · rw [hok]
    have hctx' : (s.afterHello payload).ctx = _ := hctx
    refine .ofGoOn (k := (false, msgEnd payload s.offset)) (congrArg HsCtx.cipherSuite hctx :) ?_ ?_ ?_ ?_
    · simp only [cost, next, hctx', HsCtx.withHello]
      exact hcost
    · exact (and_iff_left hsafe).symm
    · simp [key, next, hctx', HsCtx.withHello]
    · intro k'
      exact (hfollow k').trans (and_iff_right ⟨by simpa using hstate, hacc⟩)
  · rw [hok]
    refine .ofDone ?_ ?_ (and_iff_left hsafe).symm fun k' hf => hno ?_
    · rcases hctx with ⟨-, hctx⟩ | ⟨random, hctx⟩
      · exact (congrArg HsCtx.cipherSuite hctx :)
      · exact (congrArg HsCtx.cipherSuite hctx :)
    · have hctx' : (s.afterHello payload).ctx = (s.hello payload).ctx := rfl
      rcases hctx with ⟨hstate, hctx⟩ | ⟨random, hctx⟩
      · simp only [cost, hctx', hctx, if_neg hstate] at hcost ⊢
        exact hcost
      · simp only [cost, hctx', hctx] at hcost ⊢
        exact hcost
    · obtain ⟨⟨hstate, hacc⟩, -⟩ := (hfollow k').1 hf
      exact ⟨by simpa using hstate, hacc⟩

lemma messageStep_spec {x : Next} (h : messageStep fuel payload recordLen s = some x) : StepSpec payload recordLen s x := by
  obtain ⟨hno, ok, n, heq, hn⟩ | ⟨hhas, htype, heq⟩ | ⟨hhas, htype, heq⟩ | ⟨hhas, hhello, hcert, heq⟩ :=
    messageStep_cases fuel payload recordLen s
  · cases heq.symm.trans h
    refine .ofDone rfl (by simp only [cost]; omega) ?_ fun k hf => hno hf.hasMessage
    exact ⟨fun hin => ⟨hin, fun hhas => absurd hhas hno⟩, And.left⟩
  · cases heq.symm.trans h
    exact hello_spec hR hhas htype
  · obtain ⟨r, hr, rfl⟩ := Option.map_eq_some_iff.1 (heq.symm.trans h)
    have hspec := cert_some htype (passedLen_eq s.offset (hhas.offset_le hR)) hr
    have hfollow := fun k => @follow_certificate _ _ s.ctx.cipherSuite _ (s.ctx.state = .clientHelloSent) k hhas htype
    have hin : (s.afterCert payload r).Inside ↔ s.Inside ∧ CertSafeAt payload recordLen s.offset := by
      have hsafe : CertSafeAt payload recordLen s.offset ↔ r.reach ≤ passedLen payload s.offset :=
        ⟨fun h => hspec.2.2 (h hhas htype), fun h _ _ => hspec.2.1 h⟩
      rw [hsafe]
      simp [Scan.Inside, afterCert, or_imp, forall_and]
    have hcost : (s.afterCert payload r).cost ≤ s.cost + 1 := (Nat.add_right_comm ..).le
    cases hok : r.ok with
    | true => exact .ofGoOn rfl hcost hin rfl fun k' => (hfollow k').trans (and_iff_right (hspec.1.1 hok))
    | false => exact .ofDone rfl hcost hin fun k' hf => absurd (hspec.1.2 ((hfollow k').1 hf).1) (by simp [hok])
  · cases heq.symm.trans h
    exact .ofGoOn rfl (Nat.add_right_comm ..).le (and_iff_left (.of_type hcert)).symm rfl
      fun k => follow_other hhas hhello hcert

lemma messageStep_returns (hf : 0 < fuel)
    (h : CertSafeAt payload recordLen s.offset) : ∃ x, messageStep fuel payload recordLen s = some x := by
  obtain ⟨-, ok, n, heq, -⟩ | ⟨-, -, heq⟩ | ⟨hhas, htype, heq⟩ | ⟨-, -, -, heq⟩ := messageStep_cases fuel payload recordLen s
  · exact ⟨_, heq⟩
  · exact ⟨_, heq⟩
  · obtain ⟨r, hr⟩ := cert_returns htype (passedLen_eq s.offset (hhas.offset_le hR)) hf (h hhas htype)
    rw [hr] at heq
    exact ⟨_, heq⟩
  · exact ⟨_, heq⟩

/-! ### The whole loop -/

/-- The messages that are met from a place on: no certificate does harm, and none leads back to itself. -/
def Harmless (payload : Mem) (recordLen suite : ℕ) (k : Bool × ℕ) : Prop :=
  ∀ k', ReflTransGen (Follow payload recordLen suite) k k' →
    CertSafeAt payload recordLen k'.2 ∧ ¬ TransGen (Follow payload recordLen suite) k' k'

lemma messageLoop_returns (hf : 0 < fuel) (n : ℕ) :
    ∀ (T : Finset (Bool × ℕ)) (s : Scan), T.card < n → s.Inside → Harmless payload recordLen s.ctx.cipherSuite s.key →
      (∀ k, ReflTransGen (Follow payload recordLen s.ctx.cipherSuite) s.key k → HasMessage payload recordLen k.2 → k ∈ T) →
      ∃ ok s', messageLoop fuel payload recordLen n s = some (ok, s') ∧ s'.cost ≤ s.cost + T.card + 1 ∧ s'.Inside := by
  induction n with
  | zero => exact fun T s hT => absurd hT (Nat.not_lt_zero _)
  | succ n ih =>
    intro T s hT hin hharm hmem
    obtain ⟨x, hx⟩ := messageStep_returns hR hf (hharm s.key .refl).1
    have hspec := messageStep_spec hR hx
    rw [messageLoop, hx]
    cases x with
    | done ok s' =>
      exact ⟨ok, s', rfl, le_trans hspec.cost (by omega), hspec.inside.2 ⟨hin, (hharm s.key .refl).1⟩⟩
    | goOn s' =>
      have hstep : Follow payload recordLen s.ctx.cipherSuite s.key s'.key := (hspec.follow _).2 ⟨s', rfl, rfl⟩
      have hsuite : s'.ctx.cipherSuite = s.ctx.cipherSuite := hspec.suite
      have hs : s.key ∈ T := hmem _ .refl hstep.hasMessage
      have hcard := card_erase_of_mem hs
      have hpos := card_pos.2 ⟨_, hs⟩
      obtain ⟨ok, r, hr, hcost, hrin⟩ := ih (T.erase s.key) s' (by omega)
        (hspec.inside.2 ⟨hin, (hharm s.key .refl).1⟩)
        (by rw [hsuite]; exact fun k hk => hharm k (.head hstep hk))
        (by
          rw [hsuite]
          refine fun k hk hhas => mem_erase.2 ⟨?_, hmem k (.head hstep hk) hhas⟩
          -- otherwise the messages lead back
          rintro rfl
          exact (hharm s.key .refl).2 (.head' hstep hk))
      refine ⟨ok, r, hr, ?_, hrin⟩
      have hone : s'.cost ≤ s.cost + 1 := hspec.cost
      omega

lemma messageLoop_pass (h : messageLoop fuel payload recordLen n s = some r) (hk : Follow payload recordLen s.ctx.cipherSuite s.key k) :
    ∃ m s', n = m + 1 ∧ messageLoop fuel payload recordLen m s' = some r ∧ s'.key = k ∧
      s'.ctx.cipherSuite = s.ctx.cipherSuite := by
  cases n with
  | zero => cases h
  | succ n =>
    unfold messageLoop at h
    cases hx : messageStep fuel payload recordLen s with
    | none => rw [hx] at h; cases h
    | some x =>
      have hspec := messageStep_spec hR hx
      obtain ⟨s', rfl, hkey⟩ := (hspec.follow k).1 hk
      rw [hx] at h
      exact ⟨n, s', rfl, h, hkey, hspec.suite⟩

lemma messageLoop_inside (n : ℕ) :
    ∀ (s : Scan) (r : Bool × Scan), messageLoop fuel payload recordLen n s = some r → r.2.Inside →
      s.Inside ∧ CertSafeAt payload recordLen s.offset := by
  induction n with
  | zero => exact fun s r h => nomatch h
  | succ n ih =>
    intro s r h hin
    unfold messageLoop at h
    cases hx : messageStep fuel payload recordLen s with
    | none => rw [hx] at h; cases h
    | some x =>
      have hspec := messageStep_spec hR hx
      rw [hx] at h
      cases x with
      | done ok s' =>
        cases h
        exact hspec.inside.1 hin
      | goOn s' => exact hspec.inside.1 (ih s' r h hin).1

lemma messageLoop_reaches (h : messageLoop fuel payload recordLen n s = some r) (hsuite : s.ctx.cipherSuite = suite)
    (hk : ReflTransGen (Follow payload recordLen suite) s.key k) :
    ∃ m ≤ n, ∃ s', messageLoop fuel payload recordLen m s' = some r ∧ s'.key = k ∧ s'.ctx.cipherSuite = suite := by
  induction hk with
  | refl => exact ⟨n, le_rfl, s, h, rfl, hsuite⟩
  | tail _ hstep ih =>
    obtain ⟨m, hm, s', h', rfl, rfl⟩ := ih
    obtain ⟨m', s'', rfl, h'', hkey, hsuite''⟩ := messageLoop_pass hR h' hstep
    exact ⟨m', by omega, s'', h'', hkey, hsuite''⟩

lemma messageLoop_acyclic (n : ℕ) :
    ∀ s : Scan, messageLoop fuel payload recordLen n s = some r → s.ctx.cipherSuite = suite → s.key = k →
      ¬ TransGen (Follow payload recordLen suite) k k := by
  induction n using Nat.strong_induction_on with
  | _ n ih =>
    rintro s h rfl rfl hcycle
    obtain ⟨k', hhead, hrest⟩ := TransGen.head'_iff.1 hcycle
    obtain ⟨m, s', rfl, h', rfl, hsuite'⟩ := messageLoop_pass hR h hhead
    obtain ⟨m', hm, s'', h'', hkey, hsuite''⟩ := messageLoop_reaches hR h' hsuite' hrest
    exact ih m' (by omega) s'' h'' hsuite'' hkey hcycle

lemma messageLoop_harmless (h : messageLoop fuel payload recordLen n s = some r) (hin : r.2.Inside) :
    Harmless payload recordLen s.ctx.cipherSuite s.key := by
  intro k hk
  obtain ⟨m, -, s', h', rfl, hsuite⟩ := messageLoop_reaches hR h rfl hk
  exact ⟨(messageLoop_inside hR m s' r h' hin).2, messageLoop_acyclic hR m s' h' hsuite rfl⟩

lemma messageLoop_linear (hf : 0 < fuel) (hn : 2 * recordLen < n)
    (hin : s.Inside) (hharm : Harmless payload recordLen s.ctx.cipherSuite s.key) :
    ∃ ok s', messageLoop fuel payload recordLen n s = some (ok, s') ∧ s'.cost ≤ s.cost + 2 * recordLen + 1 ∧ s'.Inside := by
  have hcard : (univ ×ˢ range recordLen : Finset (Bool × ℕ)).card = 2 * recordLen := by
    rw [card_product, card_univ, Fintype.card_bool, card_range]
  rw [← hcard] at hn ⊢
  refine messageLoop_returns hR hf n _ s hn hin hharm fun k _ hhas => ?_
  have := hhas.1
  exact mem_product.2 ⟨mem_univ _, mem_range.2 (by omega)⟩

end Messages

/-! ### Records -/

/-- What is asked of the processing of a record: it returns, after a number of iterations of its loops that is linear in
the length, and `tls_recv_certificate` has read only bytes of its message. -/
def Returns (ctx : HsCtx) (data : Mem) (dataLen : ℕ) : Prop :=
  ∃ n, ∀ fuel ≥ n, ∃ ok s, tlsProcessRecord fuel ctx data dataLen = some (ok, s) ∧ s.steps ≤ 2 * dataLen + 2 ^ 14 ∧
    ∀ p ∈ s.certs, p.1 ≤ p.2

/-- The condition: in a handshake record with the length of its header, no Certificate message that is met does harm, and
no message that is met leads back to itself. -/
def RecordSafe (ctx : HsCtx) (data : Mem) (dataLen : ℕ) : Prop :=
  RecordFramed data dataLen →
    Harmless (fromOffset data 5) (be16At data 3) ctx.cipherSuite (ctx.state = .clientHelloSent, 0)

lemma tlsProcessRecord_framed (fuel : ℕ) (h : RecordFramed data dataLen) : tlsProcessRecord fuel ctx data dataLen =
      messageLoop fuel (fromOffset data 5) (be16At data 3) fuel ⟨ctx, 0, 0, []⟩ := by
  obtain ⟨h5, hlen, htype⟩ := h
  rw [tlsProcessRecord, if_neg (by omega)]
  exact (if_neg (not_not.2 hlen)).trans (if_pos htype)

lemma tlsProcessRecord_unframed (fuel : ℕ) (h : ¬ RecordFramed data dataLen) :
    tlsProcessRecord fuel ctx data dataLen = some (false, ⟨ctx, 0, 0, []⟩) := by
  unfold tlsProcessRecord
  dsimp only
  split_ifs with h5 hlen htype
  · rfl
  · rfl
  · exact absurd ⟨by omega, not_not.1 hlen, htype⟩ h
  · rfl

lemma Returns.harmless (h : Returns ctx data dataLen) (hframed : RecordFramed data dataLen) :
    Harmless (fromOffset data 5) (be16At data 3) ctx.cipherSuite (ctx.state = .clientHelloSent, 0) := by
  obtain ⟨n, hreturns⟩ := h
  obtain ⟨ok, s, hs, -, hcerts⟩ := hreturns n le_rfl
  rw [tlsProcessRecord_framed n hframed] at hs
  exact messageLoop_harmless (be16At_lt ..) hs hcerts

/-- **When a record gets processed.** -/
theorem record_returns_iff (ctx : HsCtx) (data : Mem) (dataLen : ℕ) : Returns ctx data dataLen ↔ RecordSafe ctx data dataLen := by
  by_cases hframed : RecordFramed data dataLen
  · refine ⟨fun h _ => h.harmless hframed, fun hsafe => ⟨2 * be16At data 3 + 1, fun fuel hfuel => ?_⟩⟩
    have hin : Scan.Inside ⟨ctx, 0, 0, []⟩ := fun p hp => nomatch hp
    have hpos : 0 < fuel := by omega
    obtain ⟨ok, s, hs, hcost, hsin⟩ := messageLoop_linear (be16At_lt ..) hpos hfuel hin (hsafe hframed)
    refine ⟨ok, s, (tlsProcessRecord_framed fuel hframed).trans hs, ?_, hsin⟩
    have hlen := hframed.2.1
    have hstart : cost ⟨ctx, 0, 0, []⟩ ≤ 2 ^ 14 := by
      unfold cost
      split_ifs <;> simp
    have hsteps : s.steps ≤ s.cost := Nat.le_add_right ..
    omega
  · refine iff_of_true ⟨0, fun fuel _ => ⟨_, _, tlsProcessRecord_unframed fuel hframed, Nat.zero_le _, ?_⟩⟩
      fun h => absurd h hframed
    exact fun p hp => nomatch hp

def recordOf (payload : Bytes) : Mem := .ofBytes ([0x16, 0x03, 0x03] ++ be 2 payload.length ++ payload)

theorem record_returns_extensions : Returns .zero (recordOf [0x08, 0, 0, 2, 0, 0]) 11 := by
  refine (record_returns_iff _ _ _).2 fun _ => ?_
  have hend : ∀ k, Follow (fromOffset (recordOf [0x08, 0, 0, 2, 0, 0]) 5) 6 0 (false, 0) k → k = (false, 6) :=
    fun k h => (follow_other (by decide) (by decide) (by decide)).1 h
  have hstop : ∀ k, ¬ Follow (fromOffset (recordOf [0x08, 0, 0, 2, 0, 0]) 5) 6 0 (false, 6) k :=
    fun k h => absurd h.hasMessage (by decide)
  intro k hk
  rcases hk.cases_head with rfl | ⟨c, hc, hrest⟩
  · refine ⟨.of_type (by decide), fun hcycle => ?_⟩
    obtain ⟨c, hc, hrest⟩ := TransGen.head'_iff.1 hcycle
    cases hend c hc
    rcases hrest.cases_head with heq | ⟨c, hc, -⟩
    · cases heq
    · exact hstop c hc
  · cases hend c hc
    rcases hrest.cases_head with rfl | ⟨c, hc, -⟩
    · refine ⟨.of_type (by decide), fun hcycle => ?_⟩
      obtain ⟨c, hc, -⟩ := TransGen.head'_iff.1 hcycle
      exact hstop c hc
    · exact absurd hc (hstop c)

/-- A certificate list with one byte: its loop does not end.  A Certificate message without a body: what is read lies
behind it.  A message of 2^24 - 4 bytes: the next one is itself. -/
theorem record_stuck : ¬ Returns .zero (recordOf [0x0b, 0, 0, 5, 0, 0, 0, 1, 0]) 14 ∧
    ¬ Returns .zero (recordOf [0x0b, 0, 0, 0]) 9 ∧ ¬ Returns .zero (recordOf [0x08, 0xff, 0xff, 0xfc]) 9 := by
  refine ⟨fun h => ?_, fun h => ?_, fun h => ?_⟩
  · exact absurd ((h.harmless (by decide) _ .refl).1 (by decide) (by decide)) (by decide)
  · exact absurd ((h.harmless (by decide) _ .refl).1 (by decide) (by decide)) (by decide)
  · refine (h.harmless (by decide) _ .refl).2 (.single ?_)
    exact Follow.other (by decide) (by decide) (by decide)

end LwftpCe.Tls
