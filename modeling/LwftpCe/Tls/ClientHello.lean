import LwftpCe.Lib.Memory
import LwftpCe.Tls.Hkdf

/-!
# The ClientHello

`tls_send_client_hello`: the message, its lengths, and the binder of the pre-shared key.  The lengths of the extensions
and of the pre_shared_key extension are filled in with two bytes too many, so that no message is a ClientHello; and the
binder is computed over a string that ends three bytes behind the place where RFC 8446 cuts the message.
-/

namespace LwftpCe.Tls

open Lib Mem Option

variable {ctx : HsCtx} {c : Cursor} {id : PskIdentity} {hash : Hash} {outLen : ℕ} {r : HelloCall} {g0 g1 g2 : Bytes}

/-! ### The function -/

/-- A buffer that is written from the front, with `offset`. -/
structure Cursor where
  mem : Mem
  offset : ℕ

namespace Cursor

def put (c : Cursor) (bs : Bytes) : Cursor := ⟨c.mem.write c.offset bs, c.offset + bs.length⟩

def skip (c : Cursor) (n : ℕ) : Cursor := ⟨c.mem, c.offset + n⟩

def fillIn (c : Cursor) (a : ℕ) (bs : Bytes) : Cursor := ⟨c.mem.write a bs, c.offset⟩

@[simp] lemma fillIn_offset (c : Cursor) (a : ℕ) (bs : Bytes) : (c.fillIn a bs).offset = c.offset := rfl

end Cursor

/-- What a call leaves: its result, the context, the output buffer and `*written`. -/
structure HelloCall where
  ok : Bool
  ctx : HsCtx
  out : Mem
  written : ℕ

def twoBytes (n : ℕ) : Bytes := [UInt8.ofNat (n >>> 8), UInt8.ofNat n]

def binderFinishedKey (hash : Hash) (psk : Bytes) : Option Bytes :=
  (tlsHkdfExtract hash [] psk).bind fun earlySecret =>
    (tlsHkdfExpandLabel hash earlySecret.val (ascii "res binder") [] 32).bind fun binderKey =>
      tlsHkdfExpandLabel hash binderKey (ascii "finished") [] 32

structure HelloMarks where
  extLenOffset : ℕ
  extStart : ℕ
  pskExtLenOffset : ℕ
  pskExtStart : ℕ

def helloIdentities (id : PskIdentity) (identitiesLenOffset identitiesStart : ℕ) (c : Cursor) : Cursor :=
  let c := c.put (id.identity.val.take id.identityLen)
  let age := id.obfuscatedTicketAge
  let c := c.put [UInt8.ofNat (age >>> 24), UInt8.ofNat (age >>> 16), UInt8.ofNat (age >>> 8), UInt8.ofNat age]
  let identitiesLen := c.offset - identitiesStart
  c.fillIn identitiesLenOffset (twoBytes identitiesLen)

def helloLengths (marks : HelloMarks) (bindersLenOffset : ℕ) (c : Cursor) : Cursor :=
  let totalMsgLen := c.offset + 32 - 4
  let c := c.fillIn 0 [0x01, UInt8.ofNat (totalMsgLen >>> 16), UInt8.ofNat (totalMsgLen >>> 8), UInt8.ofNat totalMsgLen]
  let extLen := c.offset + 32 + 2 - marks.extStart
  let c := c.fillIn marks.extLenOffset (twoBytes extLen)
  let pskExtLen := c.offset + 32 + 2 - marks.pskExtStart
  let c := c.fillIn marks.pskExtLenOffset (twoBytes pskExtLen)
  let bindersLen := 1 + 32
  c.fillIn bindersLenOffset (twoBytes bindersLen)

def helloBinders (hash : Hash) (ctx : HsCtx) (outLen : ℕ) (marks : HelloMarks) (c : Cursor) : HelloCall :=
  let binderOffset := c.offset
  let c := (c.skip 2).put [32]
  match binderFinishedKey hash ctx.psk.val with
  | none => ⟨false, ctx, c.mem, 0⟩
  | some finishedKey =>
    let c := helloLengths marks binderOffset c
    let partialHash := hash (c.mem.read 0 (binderOffset + 3))
    match tlsHmacContextInit hash finishedKey with
    | none => ⟨false, ctx, c.mem, 0⟩
    | some hmacCtx =>
      let binder := tlsHmacDigest hash (tlsHmacUpdate hmacCtx partialHash.val)
      if c.offset + 32 > outLen then ⟨false, ctx, c.mem, 0⟩
      else
        let c := c.put binder.val
        ⟨true, { ctx with
          transcript := ctx.transcript.map (· ++ c.mem.read 0 c.offset)
          state := .clientHelloSent }, c.mem, c.offset⟩

def tlsSendClientHello (hash : Hash) (ctx : HsCtx) (out : Mem) (outLen : ℕ) : HelloCall :=
  let id := ctx.pskIdentity
  if 0 + 4 > outLen then ⟨false, ctx, out, 0⟩
  else
    let c := (Cursor.skip ⟨out, 0⟩ 4).put [0x03, 0x03]
    if c.offset + 32 > outLen then ⟨false, ctx, c.mem, 0⟩
    else
      let c := c.put ctx.clientRandom.val
      -- no session id, one cipher suite, null compression
      let c := c.put [0x00, 0x00, 0x02, 0x13, 0x01, 0x01, 0x00]
      let extLenOffset := c.offset
      let c := c.skip 2
      let extStart := c.offset
      let c := c.put [0x00, 0x2b, 0x00, 0x03, 0x02, 0x03, 0x04]
      let c := c.put [0x00, 0x2d, 0x00, 0x02, 0x01, 0x00]
      let c := c.put [0x00, 0x29]
      let pskExtLenOffset := c.offset
      let c := c.skip 2
      let pskExtStart := c.offset
      let identitiesLenOffset := c.offset
      let c := c.skip 2
      let identitiesStart := c.offset
      let c := c.put (twoBytes id.identityLen)
      if c.offset + id.identityLen > outLen then ⟨false, ctx, c.mem, 0⟩
      else
        helloBinders hash ctx outLen ⟨extLenOffset, extStart, pskExtLenOffset, pskExtStart⟩
          (helloIdentities id identitiesLenOffset identitiesStart c)

lemma helloBinders_ctx {marks : HelloMarks} (hr : helloBinders hash ctx outLen marks c = r) (h : r.ok = true) :
    r.ctx = { ctx with transcript := ctx.transcript.map (· ++ r.out.read 0 r.written), state := .clientHelloSent } := by
  unfold helloBinders at hr
  dsimp only at hr
  split at hr
  · rw [← hr] at h
    cases h
  split at hr
  · rw [← hr] at h
    cases h
  split_ifs at hr
  · rw [← hr] at h
    cases h
  · rw [← hr]

lemma tlsSendClientHello_ctx {out : Mem} (hr : tlsSendClientHello hash ctx out outLen = r) (h : r.ok = true) :
    r.ctx = { ctx with transcript := ctx.transcript.map (· ++ r.out.read 0 r.written), state := .clientHelloSent } := by
  unfold tlsSendClientHello at hr
  dsimp only at hr
  split_ifs at hr
  · rw [← hr] at h
    cases h
  · rw [← hr] at h
    cases h
  · rw [← hr] at h
    cases h
  · exact helloBinders_ctx hr h

/-! ### The bytes of the message -/

/-- The string `bs` has been written. -/
structure Cursor.Holds (c : Cursor) (bs : Bytes) : Prop where
  offset : c.offset = bs.length
  bytes : c.mem.read 0 bs.length = bs

namespace Cursor.Holds

variable {c : Cursor} {bs p g q : Bytes}

lemma put (h : c.Holds bs) (cs : Bytes) : (c.put cs).Holds (bs ++ cs) := by
  have hback := read_write c.mem c.offset cs
  refine ⟨by rw [Cursor.put, h.offset, List.length_append], ?_⟩
  rw [List.length_append, read_add, Nat.zero_add, Cursor.put, read_write_before (by rw [h.offset]; omega), h.bytes,
    ← h.offset, hback]

lemma skip (h : c.Holds bs) (n : ℕ) : ∃ g : Bytes, g.length = n ∧ (c.skip n).Holds (bs ++ g) := by
  refine ⟨c.mem.read bs.length n, length_read .., by rw [Cursor.skip, h.offset, List.length_append, length_read], ?_⟩
  rw [List.length_append, length_read, read_add, Nat.zero_add]
  exact congrArg (· ++ _) h.bytes

lemma congr (h : c.Holds bs) (heq : bs = p) : c.Holds p := heq ▸ h

lemma fillIn (h : c.Holds (p ++ g ++ q)) {a : ℕ} (ha : a = p.length) {b : Bytes} (hb : b.length = g.length) :
    (c.fillIn a b).Holds (p ++ b ++ q) := by
  obtain ⟨hpg, hq⟩ := read_append _ _ h.bytes
  obtain ⟨hp, -⟩ := read_append _ _ hpg
  have hback := read_write c.mem p.length b
  have hbehind : (c.mem.write p.length b).read (p.length + b.length) q.length = q := by
    rw [List.length_append, Nat.zero_add, ← hb] at hq
    rw [← hq, length_read]
    refine read_congr fun i hi _ => write_behind i hi
  have hbefore : (c.mem.write p.length b).read 0 p.length = p := by
    rw [read_write_before (by omega), hp]
  subst ha
  refine ⟨?_, ?_⟩
  · rw [Cursor.fillIn, h.offset]
    simp [hb]
  · rw [Cursor.fillIn, List.length_append, List.length_append, read_add, read_add, Nat.zero_add, Nat.zero_add,
      hbefore, hback, hbehind]

end Cursor.Holds

def helloOffer (ctx : HsCtx) : Bytes :=
  [0x03, 0x03] ++ ctx.clientRandom.val ++ [0x00, 0x00, 0x02, 0x13, 0x01, 0x01, 0x00]

def helloExtensions : Bytes :=
  [0x00, 0x2b, 0x00, 0x03, 0x02, 0x03, 0x04] ++ [0x00, 0x2d, 0x00, 0x02, 0x01, 0x00] ++ [0x00, 0x29]

def identities (id : PskIdentity) : Bytes :=
  be 2 id.identityLen ++ id.identity.val.take id.identityLen ++ be 4 id.obfuscatedTicketAge

def helloFront (ctx : HsCtx) : Bytes :=
  let n := ctx.pskIdentity.identityLen
  0x01 :: be 3 (103 + n) ++ helloOffer ctx ++ be 2 (62 + n) ++ helloExtensions ++ be 2 (45 + n) ++ be 2 (6 + n) ++
    identities ctx.pskIdentity ++ be 2 33 ++ [32]

lemma twoBytes_eq (n : ℕ) : twoBytes n = be 2 n := by
  simp [twoBytes, be, Nat.shiftRight_eq_div_pow]

def codeFinishedKey (hash : Hash) (psk : Bytes) : Bytes :=
  Hkdf.expandLabel hash.bytes (Hkdf.expandLabel hash.bytes (Hkdf.extract hash.bytes [] psk) (ascii "res binder") [] 32)
    (ascii "finished") [] 32

lemma length_codeFinishedKey (hash : Hash) (psk : Bytes) : (codeFinishedKey hash psk).length = 32 :=
  Hkdf.length_expandLabel hash.length_bytes ..

lemma binderFinishedKey_eq (hash : Hash) (psk : Bytes) : binderFinishedKey hash psk = some (codeFinishedKey hash psk) := by
  obtain ⟨early, hearly, hval⟩ := map_eq_some_iff.1 (tlsHkdfExtract_eq hash [] psk)
  have hne : early.val ≠ [] := List.length_pos_iff.1 (by rw [early.property]; decide)
  have hkey : Hkdf.expandLabel hash.bytes early.val (ascii "res binder") [] 32 ≠ [] :=
    List.length_pos_iff.1 (by rw [Hkdf.length_expandLabel hash.length_bytes]; decide)
  unfold binderFinishedKey codeFinishedKey
  rw [hearly, bind_some, tlsHkdfExpandLabel_eq hne (by decide) (by decide) (by decide) (by decide), bind_some,
    tlsHkdfExpandLabel_eq hkey (by decide) (by decide) (by decide) (by decide), hval]

def codeBinder (hash : Hash) (ctx : HsCtx) : Bytes :=
  Hkdf.hmac hash.bytes (codeFinishedKey hash ctx.psk.val) (hash.bytes (helloFront ctx))

lemma length_identity (h : id.identityLen ≤ 32) : (id.identity.val.take id.identityLen).length = id.identityLen := by
  rw [List.length_take, id.identity.property]
  omega

lemma length_identities (h : id.identityLen ≤ 32) : (identities id).length = 6 + id.identityLen := by
  simp only [identities, List.length_append, length_be, length_identity h]
  omega

lemma length_helloOffer (ctx : HsCtx) : (helloOffer ctx).length = 41 := by
  simp [helloOffer, ctx.clientRandom.property]

lemma helloIdentities_holds (hid : id.identityLen ≤ 32) {s g : Bytes} (hg : g.length = 2)
    (h : c.Holds (s ++ g ++ be 2 id.identityLen)) :
    (helloIdentities id s.length (s.length + 2) c).Holds (s ++ be 2 (6 + id.identityLen) ++ identities id) := by
  have hage : ∀ n : ℕ, [UInt8.ofNat (n >>> 24), UInt8.ofNat (n >>> 16), UInt8.ofNat (n >>> 8), UInt8.ofNat n] = be 4 n := by
    simp [be, Nat.shiftRight_eq_div_pow, Nat.div_div_eq_div_mul]
  have hput := (h.put (id.identity.val.take id.identityLen)).put (be 4 id.obfuscatedTicketAge)
  unfold helloIdentities
  dsimp only
  rw [hage, hput.offset, twoBytes_eq]
  have hlen : (s ++ g ++ be 2 id.identityLen ++ id.identity.val.take id.identityLen ++ be 4 id.obfuscatedTicketAge).length -
      (s.length + 2) = 6 + id.identityLen := by
    simp only [List.length_append, length_be, length_identity hid]
    omega
  rw [hlen]
  refine Cursor.Holds.fillIn (g := g) (hput.congr ?_) rfl (by rw [length_be, hg])
  simp only [identities, List.append_assoc]

lemma helloLengths_holds (hid : ctx.pskIdentity.identityLen ≤ 32) {g4 : Bytes}
    (h0 : g0.length = 4) (h1 : g1.length = 2) (h2 : g2.length = 2) (h4 : g4.length = 2)
    (h : c.Holds (g0 ++ helloOffer ctx ++ g1 ++ helloExtensions ++ g2 ++ be 2 (6 + ctx.pskIdentity.identityLen) ++
      identities ctx.pskIdentity ++ g4 ++ [32])) :
    (helloLengths ⟨45, 47, 62, 64⟩ (72 + ctx.pskIdentity.identityLen) c).Holds (helloFront ctx) := by
  have hoffer := length_helloOffer ctx
  have hids := length_identities hid
  have hext : helloExtensions.length = 15 := rfl
  have hthree : ∀ n : ℕ, [0x01, UInt8.ofNat (n >>> 16), UInt8.ofNat (n >>> 8), UInt8.ofNat n] = 0x01 :: be 3 n := by
    simp [be, Nat.shiftRight_eq_div_pow, Nat.div_div_eq_div_mul]
  have hoff : c.offset = 75 + ctx.pskIdentity.identityLen := by
    rw [h.offset]
    simp only [List.length_append, length_be, List.length_singleton]
    omega
  unfold helloLengths
  simp only [hthree, twoBytes_eq, Cursor.fillIn_offset, hoff]
  -- the places from the front to the back
  have ha := Cursor.Holds.fillIn (p := []) (b := 0x01 :: be 3 (75 + ctx.pskIdentity.identityLen + 32 - 4))
    (h.congr (by simp only [List.append_assoc, List.nil_append]; rfl)) rfl (by simp [h0])
  have hb := Cursor.Holds.fillIn (p := 0x01 :: be 3 (75 + ctx.pskIdentity.identityLen + 32 - 4) ++ helloOffer ctx)
    (b := be 2 (75 + ctx.pskIdentity.identityLen + 32 + 2 - 47)) (a := 45)
    (ha.congr (by simp only [List.append_assoc, List.nil_append]; rfl)) (by simp [hoffer]) (by simp [h1])
  have hc := Cursor.Holds.fillIn (p := 0x01 :: be 3 (75 + ctx.pskIdentity.identityLen + 32 - 4) ++ helloOffer ctx ++
      be 2 (75 + ctx.pskIdentity.identityLen + 32 + 2 - 47) ++ helloExtensions)
    (b := be 2 (75 + ctx.pskIdentity.identityLen + 32 + 2 - 64)) (a := 62)
    (hb.congr (by simp only [List.append_assoc]; rfl)) (by simp [hoffer, hext]) (by simp [h2])
  have hd := Cursor.Holds.fillIn (p := 0x01 :: be 3 (75 + ctx.pskIdentity.identityLen + 32 - 4) ++ helloOffer ctx ++
      be 2 (75 + ctx.pskIdentity.identityLen + 32 + 2 - 47) ++ helloExtensions ++
      be 2 (75 + ctx.pskIdentity.identityLen + 32 + 2 - 64) ++ be 2 (6 + ctx.pskIdentity.identityLen) ++
      identities ctx.pskIdentity) (b := be 2 33) (a := 72 + ctx.pskIdentity.identityLen)
    (hc.congr (by simp only [List.append_assoc]; rfl)) (by simp [hoffer, hext, hids]; omega) (by simp [h4])
  refine hd.congr ?_
  have e1 : 75 + ctx.pskIdentity.identityLen + 32 - 4 = 103 + ctx.pskIdentity.identityLen := by omega
  have e2 : 75 + ctx.pskIdentity.identityLen + 32 + 2 - 47 = 62 + ctx.pskIdentity.identityLen := by omega
  have e3 : 75 + ctx.pskIdentity.identityLen + 32 + 2 - 64 = 45 + ctx.pskIdentity.identityLen := by omega
  rw [e1, e2, e3]
  rfl

lemma length_helloFront (hid : ctx.pskIdentity.identityLen ≤ 32) : (helloFront ctx).length = 75 + ctx.pskIdentity.identityLen := by
  have hext : helloExtensions.length = 15 := rfl
  simp only [helloFront, List.length_append, List.length_cons, length_be, List.length_nil, length_helloOffer,
    length_identities hid, hext]
  omega

lemma helloBinders_eq (hash : Hash) (outLen : ℕ) (hid : ctx.pskIdentity.identityLen ≤ 32) (h0 : g0.length = 4) (h1 : g1.length = 2) (h2 : g2.length = 2)
    (h : c.Holds (g0 ++ helloOffer ctx ++ g1 ++ helloExtensions ++ g2 ++ be 2 (6 + ctx.pskIdentity.identityLen) ++
      identities ctx.pskIdentity)) :
    ∃ out', helloBinders hash ctx outLen ⟨45, 47, 62, 64⟩ c =
        (if 107 + ctx.pskIdentity.identityLen > outLen then ⟨false, ctx, out', 0⟩ else ⟨true, { ctx with
          transcript := ctx.transcript.map (· ++ (helloFront ctx ++ codeBinder hash ctx))
          state := .clientHelloSent }, out', 107 + ctx.pskIdentity.identityLen⟩) ∧
      (107 + ctx.pskIdentity.identityLen ≤ outLen →
        out'.read 0 (107 + ctx.pskIdentity.identityLen) = helloFront ctx ++ codeBinder hash ctx) := by
  have hext : helloExtensions.length = 15 := rfl
  have hoff : c.offset = 72 + ctx.pskIdentity.identityLen := by
    rw [h.offset]
    simp only [List.length_append, length_be, length_helloOffer, length_identities hid, hext]
    omega
  obtain ⟨g4, h4, hskip⟩ := h.skip 2
  have hlengths := helloLengths_holds hid h0 h1 h2 h4 (hskip.put [32])
  have hkey : codeFinishedKey hash ctx.psk.val ≠ [] := List.length_pos_iff.1 (by rw [length_codeFinishedKey]; decide)
  obtain ⟨hmacCtx, hinit, hmac⟩ := hmac_spec hash hkey
  unfold helloBinders
  rw [binderFinishedKey_eq, hoff]
  dsimp only
  rw [hinit]
  dsimp only
  generalize helloLengths _ _ _ = d at hlengths ⊢
  have hfront : d.mem.read 0 (72 + ctx.pskIdentity.identityLen + 3) = helloFront ctx := by
    have hread := hlengths.bytes
    rw [length_helloFront hid] at hread
    rw [← hread]
    congr 1
    omega
  have hbinder : (tlsHmacDigest hash (tlsHmacUpdate hmacCtx (hash (helloFront ctx)).val)).val = codeBinder hash ctx := hmac _
  have hdoff : d.offset = 75 + ctx.pskIdentity.identityLen := hlengths.offset.trans (length_helloFront hid)
  have hput := hlengths.put (codeBinder hash ctx)
  have hlen : (helloFront ctx ++ codeBinder hash ctx).length = 107 + ctx.pskIdentity.identityLen := by
    have : (codeBinder hash ctx).length = 32 := hash.length_bytes _
    rw [List.length_append, length_helloFront hid]
    omega
  have hend : 75 + ctx.pskIdentity.identityLen + 32 = 107 + ctx.pskIdentity.identityLen := by omega
  rw [hfront, hbinder, hput.offset, hlen, hdoff, hend]
  have hmsg := hput.bytes
  rw [hlen] at hmsg
  by_cases hout : 107 + ctx.pskIdentity.identityLen > outLen
  · refine ⟨d.mem, ?_, fun hle => absurd hout (by omega)⟩
    rw [if_pos hout, if_pos hout]
  · refine ⟨(d.put (codeBinder hash ctx)).mem, ?_, fun _ => hmsg⟩
    rw [if_neg hout, if_neg hout, hmsg]

lemma tlsSendClientHello_front (hash : Hash) (out : Mem) (outLen : ℕ) (hid : ctx.pskIdentity.identityLen ≤ 32) :
    ∃ (c : Cursor) (g0 g1 g2 : Bytes), g0.length = 4 ∧ g1.length = 2 ∧ g2.length = 2 ∧
      c.Holds (g0 ++ helloOffer ctx ++ g1 ++ helloExtensions ++ g2 ++ be 2 (6 + ctx.pskIdentity.identityLen) ++
        identities ctx.pskIdentity) ∧
      (if 68 + ctx.pskIdentity.identityLen ≤ outLen then
        tlsSendClientHello hash ctx out outLen = helloBinders hash ctx outLen ⟨45, 47, 62, 64⟩ c
      else (tlsSendClientHello hash ctx out outLen).ok = false) := by
  have hrandom : ctx.clientRandom.val.length = 32 := ctx.clientRandom.property
  have h0 : Cursor.Holds ⟨out, 0⟩ [] := ⟨rfl, rfl⟩
  obtain ⟨g0, hg0, h1⟩ := h0.skip 4
  have h2 := h1.put [0x03, 0x03]
  have hoffer := (h2.put ctx.clientRandom.val).put [0x00, 0x00, 0x02, 0x13, 0x01, 0x01, 0x00]
  obtain ⟨g1, hg1, h3⟩ := hoffer.skip 2
  have hext := ((h3.put [0x00, 0x2b, 0x00, 0x03, 0x02, 0x03, 0x04]).put [0x00, 0x2d, 0x00, 0x02, 0x01, 0x00]).put
    [0x00, 0x29]
  obtain ⟨g2, hg2, h4⟩ := hext.skip 2
  obtain ⟨g3, hg3, h5⟩ := h4.skip 2
  have h6 := h5.put (be 2 ctx.pskIdentity.identityLen)
  have hids := helloIdentities_holds hid hg3 h6
  unfold tlsSendClientHello
  dsimp only
  -- the offsets at the checks and at the places that are left
  have o2 := h2.offset
  have oOffer := hoffer.offset
  have o3 := h3.offset
  have oExt := hext.offset
  have o4 := h4.offset
  have o5 := h5.offset
  have o6 := h6.offset
  simp only [List.length_append, List.length_cons, List.length_nil, length_be, hg0, hg1, hg2, hg3, hrandom, Nat.zero_add,
    Nat.reduceAdd] at o2 oOffer o3 oExt o4 o5 o6
  simp only [List.length_append, List.length_cons, List.length_nil, hg0, hg1, hg2, hrandom, Nat.zero_add,
    Nat.reduceAdd] at hids
  rw [twoBytes_eq, o2, oOffer, o3, oExt, o4, o5]
  refine ⟨_, g0, g1, g2, hg0, hg1, hg2, hids.congr ?_, ?_⟩
  · simp only [helloOffer, helloExtensions, List.nil_append, List.append_assoc]
  · by_cases hlen : 68 + ctx.pskIdentity.identityLen ≤ outLen
    · rw [if_pos hlen, if_neg (by omega), if_neg (by omega), if_neg (by omega)]
    · rw [if_neg hlen]
      by_cases ha : 0 + 4 > outLen
      · rw [if_pos ha]
      by_cases hb : 6 + 32 > outLen
      · rw [if_neg ha, if_pos hb]
      · rw [if_neg ha, if_neg hb, if_pos (by omega)]

lemma tlsSendClientHello_eq (hash : Hash) (ctx : HsCtx) (out : Mem) (outLen : ℕ) (hid : ctx.pskIdentity.identityLen ≤ 32)
    (hout : 107 + ctx.pskIdentity.identityLen ≤ outLen) :
    ∃ out', tlsSendClientHello hash ctx out outLen = ⟨true, { ctx with
          transcript := ctx.transcript.map (· ++ (helloFront ctx ++ codeBinder hash ctx))
          state := .clientHelloSent }, out', 107 + ctx.pskIdentity.identityLen⟩ ∧
      out'.read 0 (107 + ctx.pskIdentity.identityLen) = helloFront ctx ++ codeBinder hash ctx := by
  obtain ⟨c, g0, g1, g2, h0, h1, h2, hc, heq⟩ := tlsSendClientHello_front hash out outLen hid
  obtain ⟨out', hbinders, hmsg⟩ := helloBinders_eq hash outLen hid h0 h1 h2 hc
  rw [if_pos (by omega)] at heq
  rw [if_neg (by omega)] at hbinders
  exact ⟨out', heq.trans hbinders, hmsg hout⟩

lemma tlsSendClientHello_ok (hash : Hash) (ctx : HsCtx) (out : Mem) (outLen : ℕ) (hid : ctx.pskIdentity.identityLen ≤ 32) :
    (tlsSendClientHello hash ctx out outLen).ok = true ↔ 107 + ctx.pskIdentity.identityLen ≤ outLen := by
  constructor
  · intro hok
    obtain ⟨c, g0, g1, g2, h0, h1, h2, hc, heq⟩ := tlsSendClientHello_front hash out outLen hid
    obtain ⟨out', hbinders, -⟩ := helloBinders_eq hash outLen hid h0 h1 h2 hc
    by_contra hlen
    rw [if_pos (by omega)] at hbinders
    by_cases hearly : 68 + ctx.pskIdentity.identityLen ≤ outLen
    · rw [if_pos hearly, hbinders] at heq
      simp [heq] at hok
    · rw [if_neg hearly] at heq
      simp [heq] at hok
  · intro hlen
    obtain ⟨out', heq, -⟩ := tlsSendClientHello_eq hash ctx out outLen hid hlen
    rw [heq]

/-! ### The grammar -/

structure Extension where
  type : ℕ
  data : Bytes

def Extension.bytes (e : Extension) : Bytes := be 2 e.type ++ vec 2 e.data

def offeredPsks (ids : List (Bytes × ℕ)) (binders : List Bytes) : Bytes :=
  vec 2 (ids.flatMap fun i => vec 2 i.1 ++ be 4 i.2) ++ vec 2 (binders.flatMap (vec 1))

/-- A ClientHello of RFC 8446 (4.1.2) whose last extension is pre_shared_key. -/
structure ClientHello where
  random : Arr 32
  sessionId : Bytes
  suites : Bytes
  compression : Bytes
  /-- the extensions before pre_shared_key -/
  exts : List Extension
  ids : List (Bytes × ℕ)
  binders : List Bytes
  sessionId_le : sessionId.length ≤ 32
  suites_lt : suites.length < 2 ^ 16
  compression_lt : compression.length < 2 ^ 8
  binders_lt : ∀ b ∈ binders, b.length < 2 ^ 8
  exts_lt : ((exts ++ [Extension.mk 0x29 (offeredPsks ids binders)]).flatMap Extension.bytes).length < 2 ^ 16

namespace ClientHello

def extensions (h : ClientHello) : Bytes := (h.exts ++ [Extension.mk 0x29 (offeredPsks h.ids h.binders)]).flatMap Extension.bytes

def bytes (h : ClientHello) : Bytes :=
  0x01 :: vec 3 ([0x03, 0x03] ++ h.random.val ++ vec 1 h.sessionId ++ vec 2 h.suites ++ vec 1 h.compression ++
    vec 2 h.extensions)

end ClientHello

def beforeExtensions (msg : Bytes) : Option Bytes :=
  (takeBytes 38 msg).bind fun (_, rest) => (takeVec 1 rest).bind fun (_, rest) => (takeVec 2 rest).bind fun (_, rest) =>
    (takeVec 1 rest).map Prod.snd

lemma beforeExtensions_eq (front sessionId suites compression rest : Bytes) (hfront : front.length = 38)
    (h1 : sessionId.length < 256) (h2 : suites.length < 2 ^ 16) (h3 : compression.length < 256) :
    beforeExtensions (front ++ vec 1 sessionId ++ vec 2 suites ++ vec 1 compression ++ rest) = some rest := by
  have hread : takeBytes 38 (front ++ (vec 1 sessionId ++ (vec 2 suites ++ (vec 1 compression ++ rest)))) =
      some (front, vec 1 sessionId ++ (vec 2 suites ++ (vec 1 compression ++ rest))) := takeBytes_eq_some.2 ⟨hfront, rfl⟩
  simp only [beforeExtensions, List.append_assoc, hread, bind_some, takeVec_vec (k := 1) h1, takeVec_vec (k := 2) h2,
    takeVec_vec (k := 1) h3, map_some]

lemma ClientHello.beforeExtensions_bytes (h : ClientHello) : beforeExtensions h.bytes = some (vec 2 h.extensions) := by
  have hsid := h.sessionId_le
  have hcomp := h.compression_lt
  have hfront : ∀ n : ℕ, (0x01 :: be 3 n ++ [0x03, 0x03] ++ h.random.val).length = 38 := by
    simp [h.random.property]
  rw [bytes, vec]
  generalize List.length _ = n
  have hparse := beforeExtensions_eq (0x01 :: be 3 n ++ [0x03, 0x03] ++ h.random.val) h.sessionId h.suites h.compression
    (vec 2 h.extensions) (hfront n) (by omega) h.suites_lt (by omega)
  simpa only [List.append_assoc, List.cons_append] using hparse

lemma beforeExtensions_helloFront (ctx : HsCtx) (binder : Bytes) :
    beforeExtensions (helloFront ctx ++ binder) = some (be 2 (62 + ctx.pskIdentity.identityLen) ++ (helloExtensions ++
      be 2 (45 + ctx.pskIdentity.identityLen) ++ be 2 (6 + ctx.pskIdentity.identityLen) ++ identities ctx.pskIdentity ++
      be 2 33 ++ [32] ++ binder)) := by
  have hfront : (0x01 :: be 3 (103 + ctx.pskIdentity.identityLen) ++ [0x03, 0x03] ++ ctx.clientRandom.val).length = 38 := by
    simp [ctx.clientRandom.property]
  have hvecs : ([0x00, 0x00, 0x02, 0x13, 0x01, 0x01, 0x00] : Bytes) = vec 1 [] ++ vec 2 [0x13, 0x01] ++ vec 1 [0x00] := by
    decide
  have hparse := beforeExtensions_eq _ [] [0x13, 0x01] [0x00] (be 2 (62 + ctx.pskIdentity.identityLen) ++ (helloExtensions ++
    be 2 (45 + ctx.pskIdentity.identityLen) ++ be 2 (6 + ctx.pskIdentity.identityLen) ++ identities ctx.pskIdentity ++
    be 2 33 ++ [32] ++ binder)) hfront (by decide) (by decide) (by decide)
  simpa only [helloFront, helloOffer, hvecs, List.append_assoc] using hparse

lemma not_clientHello (hash : Hash) (hid : ctx.pskIdentity.identityLen ≤ 32) (hello : ClientHello) :
    helloFront ctx ++ codeBinder hash ctx ≠ hello.bytes := by
  intro hmsg
  have hbinder : (codeBinder hash ctx).length = 32 := hash.length_bytes _
  have hext : helloExtensions.length = 15 := rfl
  have hrest := hello.beforeExtensions_bytes
  rw [← hmsg, beforeExtensions_helloFront] at hrest
  -- the length field asks for two bytes more than follow
  have hparse := takeVec_vec (k := 2) hello.exts_lt []
  rw [List.append_nil] at hparse
  have hshort : takeVec 2 (be 2 (62 + ctx.pskIdentity.identityLen) ++ (helloExtensions ++
      be 2 (45 + ctx.pskIdentity.identityLen) ++ be 2 (6 + ctx.pskIdentity.identityLen) ++ identities ctx.pskIdentity ++
      be 2 33 ++ [32] ++ codeBinder hash ctx)) = none := by
    refine takeVec_short (by omega) ?_
    simp only [List.length_append, List.length_singleton, length_be, length_identities hid, hbinder, hext]
    omega
  rw [Option.some.inj hrest] at hshort
  exact absurd (hparse.symm.trans hshort) (by simp)

/-- **The ClientHello is malformed.**  For an identity of any length, `tls_send_client_hello` returns true where there is
room for the message, and the message is not a ClientHello. -/
theorem clientHello_malformed (hash : Hash) (ctx : HsCtx) (out : Mem) (outLen : ℕ) (hid : ctx.pskIdentity.identityLen ≤ 32) :
    let s := tlsSendClientHello hash ctx out outLen
    (s.ok = true ↔ 107 + ctx.pskIdentity.identityLen ≤ outLen) ∧
      (s.ok = true → ¬ ∃ hello : ClientHello, s.out.read 0 s.written = hello.bytes) := by
  intro s
  refine ⟨tlsSendClientHello_ok hash ctx out outLen hid, ?_⟩
  rintro hok ⟨hello, hmsg⟩
  obtain ⟨out', heq, hbytes⟩ := tlsSendClientHello_eq hash ctx out outLen hid ((tlsSendClientHello_ok hash ctx out outLen hid).1 hok)
  have hs : s.out.read 0 s.written = helloFront ctx ++ codeBinder hash ctx := by
    simp only [s, heq, hbytes]
  exact not_clientHello hash hid hello (hs.symm.trans hmsg)

def zeroClient (n : ℕ) : HsCtx := tlsHandshakeInit (.zero 32) ⟨.zero 32, n, 0⟩ (.zero 32)

theorem clientHello_malformed_eight : ¬ ∃ hello : ClientHello, (tlsSendClientHello sha256 (zeroClient 8) (fun _ => 0) 512).out.read 0
      (tlsSendClientHello sha256 (zeroClient 8) (fun _ => 0) 512).written = hello.bytes := by
  have h := clientHello_malformed sha256 (zeroClient 8) (fun _ => 0) 512 (by decide)
  exact h.2 (h.1.2 (by decide))

/-- Without an identity: the extensions are 60 bytes, and their length is 62. -/
theorem clientHello_empty_identity :
    let s := tlsSendClientHello sha256 (zeroClient 0) (fun _ => 0) 512
    s.ok = true ∧ (∃ exts, exts.length = 60 ∧ beforeExtensions (s.out.read 0 s.written) = some (be 2 62 ++ exts)) ∧
      ¬ ∃ hello : ClientHello, s.out.read 0 s.written = hello.bytes := by
  obtain ⟨out', heq, hbytes⟩ := tlsSendClientHello_eq sha256 (zeroClient 0) (fun _ => 0) 512
    (by decide) (by decide)
  have hbinder : (codeBinder sha256 (zeroClient 0)).length = 32 := sha256.length_bytes _
  intro s
  have hs : s = _ := heq
  rw [hs]
  refine ⟨rfl, ⟨_, ?_, (congrArg beforeExtensions hbytes).trans (beforeExtensions_helloFront (zeroClient 0) _)⟩, ?_⟩
  · rfl
  · rintro ⟨hello, hmsg⟩
    exact not_clientHello sha256 (by decide) hello (hbytes.symm.trans hmsg)

/-! ### The binder -/

def rfcFinishedKey (hash : Bytes → Bytes) (label psk : Bytes) : Bytes :=
  let earlySecret := Hkdf.extract hash [] psk
  let binderKey := Hkdf.deriveSecret hash earlySecret label []
  Hkdf.expandLabel hash binderKey (ascii "finished") [] 32

def rfcBinder (hash : Bytes → Bytes) (label psk truncated : Bytes) : Bytes :=
  Hkdf.hmac hash (rfcFinishedKey hash label psk) (hash truncated)

def truncated (ctx : HsCtx) : Bytes := (helloFront ctx).take (72 + ctx.pskIdentity.identityLen)

def binderInputs (hash : Hash) (ctx : HsCtx) (label : Bytes) : List Bytes :=
  let key := codeFinishedKey hash ctx.psk.val
  let rfcKey := rfcFinishedKey hash.bytes label ctx.psk.val
  let m := hash.bytes (helloFront ctx)
  let rfcM := hash.bytes (truncated ctx)
  [Hkdf.outerInput hash.bytes key m, Hkdf.outerInput hash.bytes rfcKey rfcM, Hkdf.innerInput hash.bytes key m,
    Hkdf.innerInput hash.bytes rfcKey rfcM, helloFront ctx, truncated ctx]

lemma codeBinder_ne (hash : Hash) (hid : ctx.pskIdentity.identityLen ≤ 32) {label : Bytes}
    (hno : NoCollision hash.bytes (binderInputs hash ctx label)) :
    codeBinder hash ctx ≠ rfcBinder hash.bytes label ctx.psk.val (truncated ctx) := by
  intro heq
  simp only [NoCollision, binderInputs, List.pairwise_cons, List.mem_cons, List.not_mem_nil, or_false, forall_eq_or_imp,
    forall_eq] at hno
  obtain ⟨⟨houter, -⟩, -, ⟨hinner, -⟩, -, hmsg, -⟩ := hno
  have hdigest : hash.bytes (helloFront ctx) = hash.bytes (truncated ctx) :=
    Hkdf.hmac_inj hash.length_bytes houter hinner heq
  have hlen := congrArg List.length (hmsg hdigest)
  rw [truncated, List.length_take, length_helloFront hid] at hlen
  omega

lemma tlsSendClientHello_parts (hash : Hash) (ctx : HsCtx) (out : Mem) (outLen : ℕ)
    (hid : ctx.pskIdentity.identityLen ≤ 32) (hout : 107 + ctx.pskIdentity.identityLen ≤ outLen) :
    let s := tlsSendClientHello hash ctx out outLen
    s.out.read (s.written - 32) 32 = codeBinder hash ctx ∧ s.out.read 0 (s.written - 35) = truncated ctx := by
  obtain ⟨out', heq, hbytes⟩ := tlsSendClientHello_eq hash ctx out outLen hid hout
  have hbinder : (codeBinder hash ctx).length = 32 := hash.length_bytes _
  have hlen := length_helloFront hid
  obtain ⟨hfront, hback⟩ := read_append _ _ hbytes
  intro s
  have hs : s = _ := heq
  rw [hs]
  refine ⟨?_, ?_⟩
  · rw [hbinder, hlen, Nat.zero_add] at hback
    have e : 107 + ctx.pskIdentity.identityLen - 32 = 75 + ctx.pskIdentity.identityLen := by omega
    rw [e, hback]
  · have e : 107 + ctx.pskIdentity.identityLen - 35 = 72 + ctx.pskIdentity.identityLen := by omega
    rw [hlen, show 75 + ctx.pskIdentity.identityLen = 72 + ctx.pskIdentity.identityLen + 3 by omega, read_add] at hfront
    rw [e, truncated, ← hfront, List.take_append_of_le_length (by simp), List.take_of_length_le (by simp)]

/-- **The binder is not the binder of RFC 8446**, for any key, identity and label, where the hash has no collision among
the strings of the two. -/
theorem binder_differs (hash : Hash) (ctx : HsCtx) (out : Mem) (outLen : ℕ) (label : Bytes)
    (hid : ctx.pskIdentity.identityLen ≤ 32) (hno : NoCollision hash.bytes (binderInputs hash ctx label)) :
    let s := tlsSendClientHello hash ctx out outLen
    s.ok = true → s.out.read (s.written - 32) 32 ≠ rfcBinder hash.bytes label ctx.psk.val (s.out.read 0 (s.written - 35)) := by
  intro s hok
  have hout := (tlsSendClientHello_ok hash ctx out outLen hid).1 hok
  obtain ⟨hbinder, htrunc⟩ := tlsSendClientHello_parts hash ctx out outLen hid hout
  rw [hbinder, htrunc]
  exact codeBinder_ne hash hid hno

lemma zeroClient_noCollision : ∀ label ∈ [ascii "res binder", ascii "ext binder"],
    NoCollision sha256.bytes (binderInputs sha256 (zeroClient 0) label) := by
  decide +kernel

theorem binder_differs_res :
    (tlsSendClientHello sha256 (zeroClient 0) (fun _ => 0) 512).out.read 75 32 ≠ rfcBinder sha256.bytes (ascii "res binder")
      (List.replicate 32 0) ((tlsSendClientHello sha256 (zeroClient 0) (fun _ => 0) 512).out.read 0 72) := by
  have hok := (tlsSendClientHello_ok sha256 (zeroClient 0) (fun _ => 0) 512 (by decide)).2 (by decide)
  obtain ⟨out', heq, -⟩ := tlsSendClientHello_eq sha256 (zeroClient 0) (fun _ => 0) 512 (by decide) (by decide)
  have h := binder_differs sha256 (zeroClient 0) (fun _ => 0) 512 (ascii "res binder") (by decide)
    (zeroClient_noCollision _ (by simp)) hok
  have hwritten : (tlsSendClientHello sha256 (zeroClient 0) (fun _ => 0) 512).written = 107 := by rw [heq]; rfl
  rwa [hwritten] at h

/-- With SHA-256, a key of zeros and no identity: the binder in the message is neither the one of a resumption key nor the
one of an external key. -/
theorem binder_zero_key :
    let s := tlsSendClientHello sha256 (zeroClient 0) (fun _ => 0) 512
    s.ok = true ∧ ∀ label ∈ [ascii "res binder", ascii "ext binder"],
      s.out.read (s.written - 32) 32 ≠ rfcBinder sha256.bytes label (List.replicate 32 0) (s.out.read 0 (s.written - 35)) := by
  refine ⟨(tlsSendClientHello_ok sha256 (zeroClient 0) (fun _ => 0) 512 (by decide)).2 (by decide), fun label hlabel => ?_⟩
  obtain ⟨hbinder, htrunc⟩ := tlsSendClientHello_parts sha256 (zeroClient 0) (fun _ => 0) 512
    (by decide) (by decide)
  rw [hbinder, htrunc]
  exact codeBinder_ne sha256 (by decide) (zeroClient_noCollision label hlabel)

end LwftpCe.Tls
