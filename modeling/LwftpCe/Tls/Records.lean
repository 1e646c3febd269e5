import LwftpCe.Tls.Conn
import LwftpCe.Tls.Loops

/-!
# The records of the handshake

The loop of `altcp_tls_ce_lower_recv_process` over the records in the ring: what an iteration does (`recordStep_cases`), and
the rule for invariants of the loop (`recordLoop_inv`).  The complete records in a ring are those that the lengths in their
headers give (`ringRecords`), whatever becomes of them.
-/

namespace LwftpCe.Tls

open Lib List RxRing

namespace RxRing

variable {r : RxRing} {n : ℕ}

lemma read_recordMem (heap : Mem) (h : n ≤ r.len) : (r.recordMem heap n).read 0 n = r.contents.take n := by
  have hlen : (r.contents.take n).length = n := by rw [length_take, length_contents, min_eq_left h]
  unfold recordMem tlsRingPtr
  rw [if_neg (by omega)]
  rw [Nat.add_zero, Nat.mod_eq_of_lt r.head_lt]
  by_cases hfit : r.head + n ≤ r.size
  · rw [if_pos hfit, contents, Ring.take_contents h, Ring.contents_read hfit]
    simp [Mem.read]
  · rw [if_neg hfit, tlsRingPeek_eq h]
    exact (congrArg _ hlen.symm).trans (Mem.read_write ..)

lemma contents_tlsRingDiscard (h : n ≤ r.len) : (r.tlsRingDiscard n).contents = r.contents.drop n := by
  unfold contents
  rw [Ring.drop_contents h]
  exact Ring.contents_mod ..

end RxRing

def announced (bs : Bytes) : ℕ := 5 + be16At (.ofBytes (bs.take 5)) 3

def Incomplete (bs : Bytes) : Prop := bs.length < 5 ∨ bs.length < announced bs

namespace Conn

def firstRecord (heap : Mem) (r : RxRing) : Option (Mem × ℕ) :=
  if r.len < 5 then none
  else
    let totalLen := 5 + be16At (.ofBytes (r.contents.take 5)) 3
    if r.size < totalLen ∨ r.len < totalLen then none else some (r.recordMem heap totalLen, totalLen)

def ringRecords (heap : Mem) : ℕ → RxRing → List (Mem × ℕ)
  | 0, _ => []
  | n + 1, r =>
    match firstRecord heap r with
    | none => []
    | some rec => rec :: ringRecords heap n (r.tlsRingDiscard rec.2)

lemma firstRecord_some {heap record : Mem} {r : RxRing} {n : ℕ} (h : firstRecord heap r = some (record, n)) :
    5 ≤ n ∧ n ≤ r.len ∧ n = announced r.contents ∧ record.read 0 n = r.contents.take n := by
  unfold firstRecord at h
  dsimp only at h
  split_ifs at h with h5 hlen
  cases h
  exact ⟨by omega, by omega, rfl, read_recordMem heap (by omega)⟩

/-- A ring that holds one record has no other. -/
lemma ringRecords_single {heap : Mem} {r : RxRing} {n : ℕ} {rec : Mem × ℕ} (hrec : rec ∈ ringRecords heap n r)
    (hone : r.len = announced r.contents) : rec.1.read 0 rec.2 = r.contents := by
  cases n with
  | zero => cases hrec
  | succ n =>
    unfold ringRecords at hrec
    split at hrec
    · cases hrec
    · next first hfirst =>
      obtain ⟨-, hle, htotal, hread⟩ := firstRecord_some hfirst
      have hlen : (r.tlsRingDiscard first.2).len < 5 := by
        have h := congrArg length (contents_tlsRingDiscard hle)
        rw [length_drop, length_contents, length_contents] at h
        omega
      have hrest : ringRecords heap n (r.tlsRingDiscard first.2) = [] := by
        cases n with
        | zero => rfl
        | succ n => rw [ringRecords, firstRecord, if_pos hlen]
      rw [hrest, mem_singleton] at hrec
      rw [hrec, hread, htotal, ← hone, ← length_contents, take_length]

variable {env : Env} {s : Conn}

def Env.block (env : Env) : Mem := env.heap.getD fun _ => 0

def afterRecord (env : Env) (s : Conn) (record : Mem) (totalLen : ℕ) (ctx : HsCtx) : Conn :=
  (((s.setCtx ctx).markAccepted (acceptedMessages env.fuel (fromOffset record 5) (be16At record 3) env.fuel
    ⟨s.ctx, 0, 0, []⟩)).setRing (s.ring.tlsRingDiscard totalLen)).mark (.discard totalLen)

lemma recordStep_cases (env : Env) (s : Conn) :
    (recordStep env s = some (.stop s) ∧ Incomplete s.ring.contents) ∨ recordStep env s = some (.abort s) ∨
      ∃ record totalLen, firstRecord env.block s.ring = some (record, totalLen) ∧
        recordStep env s = (tlsProcessRecord env.fuel s.ctx record totalLen).map fun r =>
          if r.1 = false then .abort (s.setCtx r.2.ctx) else .goOn (s.afterRecord env record totalLen r.2.ctx) := by
  unfold recordStep firstRecord Incomplete announced
  rw [RxRing.length_contents]
  by_cases h5 : s.ring.len ≥ 5
  · rw [if_pos h5, RxRing.tlsRingPeek_eq h5, if_neg (Nat.not_lt.2 h5)]
    dsimp only
    generalize 5 + be16At (.ofBytes (s.ring.contents.take 5)) 3 = totalLen
    by_cases hsize : totalLen > s.ring.size
    · rw [if_pos hsize]
      exact .inr (.inl rfl)
    by_cases hlen : s.ring.len < totalLen
    · rw [if_neg hsize, if_pos hlen]
      exact .inl ⟨rfl, .inr hlen⟩
    rw [if_neg hsize, if_neg hlen, if_neg (not_or.2 ⟨hsize, hlen⟩)]
    cases hptr : s.ring.tlsRingPtr 0 totalLen with
    | some pos => exact .inr (.inr ⟨_, _, rfl, rfl⟩)
    | none =>
      cases hheap : env.heap with
      | some heap =>
        refine .inr (.inr ⟨_, _, rfl, ?_⟩)
        rw [Env.block, hheap]
        rfl
      | none => exact .inr (.inl rfl)
  · rw [if_neg h5]
    exact .inl ⟨rfl, .inl (Nat.lt_of_not_le h5)⟩

lemma recordLoop_inv {C : Mem × ℕ → Prop} (I : Conn → Prop)
    (hgo : ∀ s record totalLen scan, I s → C (record, totalLen) → firstRecord env.block s.ring = some (record, totalLen) →
      tlsProcessRecord env.fuel s.ctx record totalLen = some (true, scan) → I (s.afterRecord env record totalLen scan.ctx))
    (n : ℕ) : ∀ s r, I s → (∀ rec ∈ ringRecords env.block n s.ring, C rec) → recordLoop env n s = some r →
      (∃ s', r = .stop s' ∧ I s') ∨ ∃ s' ctx, r = .abort (s'.setCtx ctx) ∧ I s' := by
  induction n with
  | zero =>
    intro s r hs _ h
    cases h
    exact .inl ⟨s, rfl, hs⟩
  | succ n ih =>
    intro s r hs hall h
    unfold recordLoop at h
    rcases recordStep_cases env s with ⟨hstep, -⟩ | hstep | ⟨record, totalLen, hfirst, hstep⟩
    · rw [hstep] at h
      cases h
      exact .inl ⟨s, rfl, hs⟩
    · rw [hstep] at h
      cases h
      exact .inr ⟨s, s.ctx, rfl, hs⟩
    · rw [ringRecords, hfirst] at hall
      rw [hstep] at h
      cases hrun : tlsProcessRecord env.fuel s.ctx record totalLen with
      | none =>
        rw [hrun] at h
        cases h
      | some out =>
        obtain ⟨ok, scan⟩ := out
        rw [hrun] at h
        cases ok with
        | false =>
          cases h
          exact .inr ⟨s, scan.ctx, rfl, hs⟩
        | true =>
          refine ih _ r (hgo s record totalLen scan hs (hall _ mem_cons_self) hfirst hrun) ?_ h
          exact fun rec hrec => hall rec (mem_cons_of_mem _ hrec)

lemma markAccepted_eq (s : Conn) (ms : List Bytes) :
    s.markAccepted ms = { s with trail := (ms.map Mark.accepted).reverse ++ s.trail } := by
  induction ms generalizing s with
  | nil => rfl
  | cons m ms ih =>
    unfold markAccepted at ih ⊢
    rw [foldl_cons, ih]
    simp [mark]

lemma afterRecord_eq (env : Env) (s : Conn) (record : Mem) (totalLen : ℕ) (ctx : HsCtx) :
    s.afterRecord env record totalLen ctx = { s with
      ctx := ctx
      ring := s.ring.tlsRingDiscard totalLen
      trail := .discard totalLen :: ((acceptedMessages env.fuel (fromOffset record 5) (be16At record 3) env.fuel
        ⟨s.ctx, 0, 0, []⟩).map Mark.accepted).reverse ++ s.trail } := by
  unfold afterRecord
  rw [markAccepted_eq]
  rfl

end Conn

end LwftpCe.Tls
