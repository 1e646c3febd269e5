import LwftpCe.Tls.ClientHello

/-!
# The buffer of the ClientHello

`tls_send_client_hello` asks three times whether there is room: for the header and the random, for the identity, and for
the binder.  What stands between is appended without a question, so that for some lengths of the buffer the call writes
behind its end, and then fails.
-/

namespace LwftpCe.Tls

open Lib List Cursor

variable {hash : Hash} {ctx : HsCtx} {c : Cursor} {out : Mem} {outLen n : ℕ}

def Cursor.Clean (c : Cursor) (out : Mem) : Prop := ∀ a, c.offset ≤ a → c.mem a = out a

namespace Cursor.Clean

lemma put (h : c.Clean out) (bs : Bytes) : (c.put bs).Clean out := by
  intro a ha
  have hle : c.offset + bs.length ≤ a := ha
  exact (Mem.write_behind a hle).trans (h a (by omega))

lemma skip (h : c.Clean out) (n : ℕ) : (c.skip n).Clean out := by
  intro a ha
  have hle : c.offset + n ≤ a := ha
  exact h a (by omega)

lemma fillIn (h : c.Clean out) {b : ℕ} {bs : Bytes} (hb : b + bs.length ≤ c.offset) : (c.fillIn b bs).Clean out := by
  intro a ha
  have hle : c.offset ≤ a := ha
  exact (Mem.write_behind a (by omega)).trans (h a hle)

end Cursor.Clean

def helloReach (n outLen : ℕ) : ℕ :=
  if outLen < 4 then 0
  else if outLen < 38 then 6
  else if outLen < 68 + n then 68
  else if outLen < 107 + n then 75 + n
  else 107 + n

lemma helloBinders_out (hash : Hash) (ctx : HsCtx) (outLen : ℕ) (h : c.Clean out) (hoff : c.offset = 72 + n) :
    let r := helloBinders hash ctx outLen ⟨45, 47, 62, 64⟩ c
    (outLen < 107 + n →
      r.out (74 + n) = 32 ∧ ∀ a, 75 + n ≤ a → r.out a = out a) ∧
    (107 + n ≤ outLen → ∀ a, 107 + n ≤ a → r.out a = out a) := by
  have hkey : codeFinishedKey hash ctx.psk.val ≠ [] := length_pos_iff.1 (by rw [length_codeFinishedKey]; decide)
  obtain ⟨hmacCtx, hinit, -⟩ := hmac_spec hash hkey
  unfold helloBinders
  rw [binderFinishedKey_eq, hoff]
  dsimp only
  rw [hinit]
  dsimp only
  -- the lengths are filled in before the last byte
  have hd : (helloLengths ⟨45, 47, 62, 64⟩ (72 + n) ((c.skip 2).put [32])).Clean out := by
    have hend : ((c.skip 2).put [32]).offset = 75 + n := by
      simp only [put, skip, length_singleton]
      omega
    unfold helloLengths
    refine (((((h.skip 2).put [32]).fillIn ?_).fillIn ?_).fillIn ?_).fillIn ?_ <;>
      simp only [fillIn_offset, hend, twoBytes, length_cons, length_nil] <;> omega
  have hlast : (helloLengths ⟨45, 47, 62, 64⟩ (72 + n) ((c.skip 2).put [32])).mem
      (74 + n) = 32 := by
    unfold helloLengths
    dsimp only [fillIn, put, skip]
    iterate 4 rw [Mem.write_behind _ (by simp only [twoBytes, length_cons, length_nil]; omega)]
    unfold Mem.write
    rw [if_pos (by omega), show 74 + n - (c.offset + 2) = 0 by omega]
    rfl
  have hdoff : (helloLengths ⟨45, 47, 62, 64⟩ (72 + n) ((c.skip 2).put [32])).offset =
      75 + n := by
    unfold helloLengths
    simp only [fillIn_offset, put, skip, length_singleton]
    omega
  generalize helloLengths _ _ _ = d at hd hlast hdoff ⊢
  constructor
  · intro hlt
    rw [if_pos (by omega)]
    exact ⟨hlast, fun a ha => hd a (by omega)⟩
  · intro hle a ha
    rw [if_neg (by omega)]
    have hbinder := (tlsHmacDigest hash (tlsHmacUpdate hmacCtx (hash (d.mem.read 0
      (72 + n + 3))).val)).property
    refine hd.put _ a ?_
    simp only [put, hbinder]
    omega

lemma helloIdentities_clean {id : PskIdentity} (hid : id.identityLen ≤ 32) (h : c.Clean out) (hoff : c.offset = 68) :
    (helloIdentities id 64 66 c).Clean out ∧ (helloIdentities id 64 66 c).offset = 72 + id.identityLen := by
  have hlen := length_identity hid
  unfold helloIdentities
  constructor
  · refine ((h.put _).put _).fillIn ?_
    simp only [put, twoBytes, length_cons, length_nil]
    omega
  · simp only [fillIn_offset, put, hlen, length_cons, length_nil]
    omega

lemma tlsSendClientHello_ways (hash : Hash) (out : Mem) (outLen : ℕ) (hn : ctx.pskIdentity.identityLen = n) :
    ∃ c : Cursor, c.Clean out ∧ c.offset = 66 ∧ tlsSendClientHello hash ctx out outLen =
      if outLen < 4 then ⟨false, ctx, out, 0⟩
      else if outLen < 38 then ⟨false, ctx, out.write 4 [0x03, 0x03], 0⟩
      else if outLen < 68 + n then ⟨false, ctx, (c.put (twoBytes n)).mem, 0⟩
      else helloBinders hash ctx outLen ⟨45, 47, 62, 64⟩ (helloIdentities ctx.pskIdentity 64 66 (c.put (twoBytes n))) := by
  have hrandom : ctx.clientRandom.val.length = 32 := ctx.clientRandom.property
  have h0 : Cursor.Clean ⟨out, 0⟩ out := fun _ _ => rfl
  have h1 := (((h0.skip 4).put [0x03, 0x03]).put ctx.clientRandom.val).put [0x00, 0x00, 0x02, 0x13, 0x01, 0x01, 0x00]
  have h2 := (((h1.skip 2).put [0x00, 0x2b, 0x00, 0x03, 0x02, 0x03, 0x04]).put [0x00, 0x2d, 0x00, 0x02, 0x01, 0x00]).put
    [0x00, 0x29]
  have ho : ∀ (d : Cursor) (bs : Bytes), (d.put bs).offset = d.offset + bs.length := fun _ _ => rfl
  subst hn
  refine ⟨_, (h2.skip 2).skip 2, ?_, ?_⟩
  · simp only [skip, ho, hrandom, length_cons, length_nil]
  · have e1 : outLen < 4 ↔ 0 + 4 > outLen := by omega
    have e2 : outLen < 38 ↔ 6 + 32 > outLen := by omega
    unfold tlsSendClientHello
    simp only [skip, ho, hrandom, length_cons, length_nil, twoBytes, Nat.zero_add, Nat.reduceAdd, e1, e2]
    rfl

lemma tlsSendClientHello_out (hn : ctx.pskIdentity.identityLen = n) (hid : n ≤ 32) (out : Mem) :
    let r := tlsSendClientHello hash ctx out outLen
    (∀ a, helloReach n outLen ≤ a → r.out a = out a) ∧
    (outLen < helloReach n outLen →
      r.out (helloReach n outLen - 1) = if outLen < 38 then 3 else if outLen < 68 + n then UInt8.ofNat n else 32) := by
  obtain ⟨c, hc, hoff, heq⟩ := tlsSendClientHello_ways hash out outLen hn
  have hput := hc.put (twoBytes n)
  have hputoff : (c.put (twoBytes n)).offset = 68 := congrArg (· + 2) hoff
  obtain ⟨hids, hidsoff⟩ := helloIdentities_clean (hn.trans_le hid) hput hputoff
  rw [hn] at hidsoff
  obtain ⟨hshort, hroom⟩ := helloBinders_out hash ctx outLen hids hidsoff
  unfold helloReach
  intro r
  have hr : r = _ := heq
  rw [hr]
  by_cases h4 : outLen < 4
  · rw [if_pos h4, if_pos h4]
    exact ⟨fun _ _ => rfl, fun h => absurd h (by omega)⟩
  rw [if_neg h4, if_neg h4]
  by_cases h38 : outLen < 38
  · rw [if_pos h38, if_pos h38, if_pos h38]
    exact ⟨fun a ha => Mem.write_behind a ha, fun _ => rfl⟩
  rw [if_neg h38, if_neg h38, if_neg h38]
  by_cases h68 : outLen < 68 + n
  · rw [if_pos h68, if_pos h68, if_pos h68]
    refine ⟨fun a ha => hput a (by omega), fun _ => ?_⟩
    show c.mem.write c.offset (twoBytes n) 67 = _
    rw [hoff]
    rfl
  rw [if_neg h68, if_neg h68, if_neg h68]
  by_cases h107 : outLen < 107 + n
  · obtain ⟨hlast, hclean⟩ := hshort h107
    rw [if_pos h107, show 75 + n - 1 = 74 + n by omega]
    exact ⟨hclean, fun _ => hlast⟩
  · rw [if_neg h107]
    exact ⟨hroom (by omega), fun h => absurd h (by omega)⟩

/-- What the call is to do with a buffer of `outLen` bytes, whatever stands there: it writes nothing behind the end, it
succeeds where the message fits, and where it fails nothing is left behind. -/
def HelloBounded (hash : Hash) (ctx : HsCtx) (outLen : ℕ) : Prop :=
  ∀ out : Mem, let r := tlsSendClientHello hash ctx out outLen
    (∀ a, outLen ≤ a → r.out a = out a) ∧
    ((helloFront ctx ++ codeBinder hash ctx).length ≤ outLen → r.ok = true) ∧
    (r.ok = false → r.ctx.transcript = ctx.transcript ∧ r.ctx.state = ctx.state ∧ r.written = 0)

lemma tlsSendClientHello_failed (h : (tlsSendClientHello hash ctx out outLen).ok = false) :
    (tlsSendClientHello hash ctx out outLen).ctx = ctx ∧ (tlsSendClientHello hash ctx out outLen).written = 0 := by
  obtain ⟨c, -, -, heq⟩ := tlsSendClientHello_ways hash out outLen rfl
  rw [heq] at h ⊢
  split_ifs at h ⊢
  · exact ⟨rfl, rfl⟩
  · exact ⟨rfl, rfl⟩
  · exact ⟨rfl, rfl⟩
  · revert h
    unfold helloBinders
    dsimp only
    split
    · exact fun _ => ⟨rfl, rfl⟩
    · split
      · exact fun _ => ⟨rfl, rfl⟩
      · split_ifs
        · exact fun _ => ⟨rfl, rfl⟩
        · intro h
          cases h

/-- **The buffer is respected exactly where the end of it is not passed between two questions.** -/
theorem hello_bounded_iff (hash : Hash) (ctx : HsCtx) (outLen : ℕ) (hid : ctx.pskIdentity.identityLen ≤ 32) :
    HelloBounded hash ctx outLen ↔ outLen < 4 ∨ (6 ≤ outLen ∧ outLen < 38) ∨
      (68 ≤ outLen ∧ outLen < 68 + ctx.pskIdentity.identityLen) ∨ 75 + ctx.pskIdentity.identityLen ≤ outLen := by
  have hreach : helloReach ctx.pskIdentity.identityLen outLen ≤ outLen ↔ outLen < 4 ∨ (6 ≤ outLen ∧ outLen < 38) ∨
      (68 ≤ outLen ∧ outLen < 68 + ctx.pskIdentity.identityLen) ∨ 75 + ctx.pskIdentity.identityLen ≤ outLen := by
    unfold helloReach
    split_ifs <;> omega
  constructor
  · intro h
    by_contra hlt
    -- a buffer that does not hold the last byte that is written
    obtain ⟨b, hb⟩ : ∃ b : UInt8, ∀ out : Mem,
        (tlsSendClientHello hash ctx out outLen).out (helloReach ctx.pskIdentity.identityLen outLen - 1) = b :=
      ⟨_, fun out => (tlsSendClientHello_out rfl hid out).2 (by omega)⟩
    have hsame := (h fun _ => b + 1).1 (helloReach ctx.pskIdentity.identityLen outLen - 1) (by omega)
    rw [hb] at hsame
    exact absurd hsame (by simp)
  · intro hle out
    refine ⟨fun a ha => (tlsSendClientHello_out rfl hid out).1 a (by omega), fun hfits => ?_, fun hfail => ?_⟩
    · have hbinder : (codeBinder hash ctx).length = 32 := hash.length_bytes _
      rw [length_append, length_helloFront hid] at hfits
      exact (tlsSendClientHello_ok hash ctx out outLen hid).2 (by omega)
    · obtain ⟨hctx, hwritten⟩ := tlsSendClientHello_failed hfail
      exact ⟨congrArg HsCtx.transcript hctx, congrArg HsCtx.state hctx, hwritten⟩

theorem hello_bounded_512 : HelloBounded sha256 (zeroClient 32) 512 :=
  (hello_bounded_iff sha256 (zeroClient 32) 512 (by decide)).2 (by decide)

/-- In a buffer of four bytes the version is written behind the end. -/
theorem hello_four_bytes : ¬ HelloBounded sha256 (zeroClient 0) 4 := by
  intro h
  have hsame := (h fun _ => 0).1 5 (by decide)
  exact absurd hsame (by decide)

end LwftpCe.Tls
