import LwftpCe.Lib.Hkdf
import LwftpCe.Lib.Sha256
import LwftpCe.Tls.Context

/-!
# HMAC and key derivation

`hmac.c` and `hkdf.c` with SHA-256.  The hash is a parameter, a function of all the bytes that were fed to it.  The
functions compute what RFC 2104, RFC 5869 and RFC 8446 define, wherever they return true.
-/

namespace LwftpCe.Tls

open Lib List Hkdf

abbrev Hash := Bytes → Arr 32

def Hash.bytes (hash : Hash) (m : Bytes) : Bytes := (hash m).val

lemma Hash.length_bytes (hash : Hash) (m : Bytes) : (hash.bytes m).length = 32 := (hash m).property

def sha256 : Hash := fun m => ⟨Sha256.hash m, Sha256.length_hash m⟩

section Hmac

variable (hash : Hash)

/-- `struct tls_hmac_context`: the pads, and the bytes fed to the inner hash. -/
structure HmacCtx where
  ipad : Bytes
  opad : Bytes
  fed : Bytes

def tlsHmacContextInit (key : Bytes) : Option HmacCtx :=
  if key.length = 0 then none
  else
    let sum := Arr.ofBytes 64 (if 64 < key.length then hash.bytes key else key)
    let ipad := sum.val.map (0x36 ^^^ ·)
    some ⟨ipad, sum.val.map (0x5c ^^^ ·), ipad⟩

def tlsHmacUpdate (ctx : HmacCtx) (data : Bytes) : HmacCtx := { ctx with fed := ctx.fed ++ data }

def tlsHmacDigest (ctx : HmacCtx) : Arr 32 := hash (ctx.opad ++ hash.bytes ctx.fed)

def tlsHkdfExtract (salt ikm : Bytes) : Option (Arr 32) :=
  let salt := if salt.length = 0 then List.replicate 32 0 else salt
  (tlsHmacContextInit hash salt).map fun ctx => tlsHmacDigest hash (tlsHmacUpdate ctx ikm)

/-- The loop of `tls_hkdf_expand` for `n` values of `i` from `i` on: `okm` is what has been written, `prev` the last
value, if there is one. -/
def hkdfExpandLoop (prk info : Bytes) (okmLen : ℕ) : ℕ → ℕ → Option Bytes → Bytes → Option Bytes
  | 0, _, _, okm => some okm
  | n + 1, i, prev, okm =>
    match tlsHmacContextInit hash prk with
    | none => none
    | some ctx =>
      let ctx := match prev with
        | none => ctx
        | some t => tlsHmacUpdate ctx t
      let ctx := if 0 < info.length then tlsHmacUpdate ctx info else ctx
      let t := (tlsHmacDigest hash (tlsHmacUpdate ctx [UInt8.ofNat i])).val
      let toCopy := if okm.length + 32 > okmLen then okmLen - okm.length else 32
      hkdfExpandLoop prk info okmLen n (i + 1) (some t) (okm ++ t.take toCopy)

def tlsHkdfExpand (prk info : Bytes) (okmLen : ℕ) : Option Bytes :=
  if okmLen > 255 * 32 then none else hkdfExpandLoop hash prk info okmLen ((okmLen + 32 - 1) / 32) 1 none []

def tlsHkdfExpandLabel (secret label context : Bytes) (outLen : ℕ) : Option Bytes :=
  let fullLabelLen := 6 + label.length
  if fullLabelLen < 7 ∨ fullLabelLen > 255 then none
  else if context.length > 255 then none
  else
    let hkdfLabel := [UInt8.ofNat (outLen >>> 8), UInt8.ofNat outLen] ++ (UInt8.ofNat fullLabelLen :: (ascii "tls13 " ++ label)) ++
      (UInt8.ofNat context.length :: context)
    tlsHkdfExpand hash secret hkdfLabel outLen

def tlsDeriveSecret (secret label transcriptHash : Bytes) : Option Bytes :=
  if transcriptHash.length ≠ 32 then none else tlsHkdfExpandLabel hash secret label transcriptHash 32

end Hmac

/-! ### What they compute -/

section Spec

variable {hash : Hash} {prk secret label : Bytes}

lemma hmac_spec (hash : Hash) {key : Bytes} (h : key ≠ []) : ∃ ctx, tlsHmacContextInit hash key = some ctx ∧
    ∀ m, (tlsHmacDigest hash (tlsHmacUpdate ctx m)).val = hmac hash.bytes key m := by
  have hlen : key.length ≠ 0 := fun h0 => h (length_eq_zero_iff.1 h0)
  refine ⟨_, if_neg hlen, fun m => ?_⟩
  have hblock : (Arr.ofBytes 64 (if 64 < key.length then hash.bytes key else key)).val = keyBlock hash.bytes key := by
    unfold keyBlock Arr.ofBytes
    by_cases h64 : 64 < key.length
    · simp [h64, take_of_length_le, hash.length_bytes]
    · simp [h64, take_of_length_le (Nat.le_of_not_lt h64)]
  simp only [tlsHmacDigest, tlsHmacUpdate, hblock]
  rfl

lemma tlsHkdfExtract_eq (hash : Hash) (salt ikm : Bytes) :
    (tlsHkdfExtract hash salt ikm).map Subtype.val = some (Hkdf.extract hash.bytes salt ikm) := by
  unfold tlsHkdfExtract Hkdf.extract
  simp only [length_eq_zero_iff]
  generalize hs : (if salt = [] then replicate 32 (0 : UInt8) else salt) = s
  have hne : s ≠ [] := by
    rw [← hs]
    split
    · simp
    · assumption
  obtain ⟨ctx, hinit, hmac⟩ := hmac_spec hash hne
  rw [hinit, Option.map_some, Option.map_some, hmac]

lemma hkdfExpandLoop_eq (hash : Hash) (h : prk ≠ []) (info : Bytes) (okmLen n j : ℕ) (hn : n + j = (okmLen + 31) / 32) :
    hkdfExpandLoop hash prk info okmLen n (j + 1) (if j = 0 then none else some (block hash.bytes prk info j))
        ((blocks hash.bytes prk info j).take okmLen) =
      some ((blocks hash.bytes prk info (n + j)).take okmLen) := by
  induction n generalizing j with
  | zero => rw [Nat.zero_add]; rfl
  | succ n ih =>
    have hblock : ∀ i, (block hash.bytes prk info (i + 1)).length = 32 := fun _ => hash.length_bytes _
    have hlen : ((blocks hash.bytes prk info j).take okmLen).length = 32 * j := by
      rw [length_take, blocks, length_chain hblock]
      omega
    obtain ⟨ctx, hinit, hmac⟩ := hmac_spec hash h
    -- what is fed for this block: the block before it, the info and the counter
    have hfed : tlsHmacUpdate (if 0 < info.length then tlsHmacUpdate (match (if j = 0 then none else
          some (block hash.bytes prk info j)) with | none => ctx | some t => tlsHmacUpdate ctx t) info
        else (match (if j = 0 then none else some (block hash.bytes prk info j)) with
          | none => ctx | some t => tlsHmacUpdate ctx t)) [UInt8.ofNat (j + 1)] =
        tlsHmacUpdate ctx (block hash.bytes prk info j ++ info ++ [UInt8.ofNat (j + 1)]) := by
      have hempty : ¬ 0 < info.length → info = [] := fun h0 => length_eq_zero_iff.1 (by omega)
      rcases Nat.eq_zero_or_pos j with rfl | hj
      · by_cases hi : 0 < info.length
        · simp [hi, tlsHmacUpdate, block]
        · simp [hempty hi, tlsHmacUpdate, block]
      · by_cases hi : 0 < info.length
        · simp [hi, tlsHmacUpdate, Nat.ne_of_gt hj]
        · simp [hempty hi, tlsHmacUpdate, Nat.ne_of_gt hj]
    have hpart : (if 32 * j + 32 > okmLen then okmLen - 32 * j else 32) = min 32 (okmLen - 32 * j) := by split_ifs <;> omega
    have hnext := ih (j + 1) (by omega)
    unfold hkdfExpandLoop
    rw [hinit]
    dsimp only
    rw [hfed, hmac, hlen]
    refine Eq.trans ?_ (hnext.trans (by rw [Nat.succ_add_eq_add_succ]))
    exact congrArg (hkdfExpandLoop hash prk info okmLen n (j + 1 + 1) _) (take_chain_succ hblock hpart)

lemma tlsHkdfExpand_eq {info : Bytes} {okmLen : ℕ} (h : prk ≠ []) (hlen : okmLen ≤ 255 * 32) :
    tlsHkdfExpand hash prk info okmLen = some (expand hash.bytes prk info okmLen) := by
  have hloop := hkdfExpandLoop_eq hash h info okmLen ((okmLen + 31) / 32) 0 rfl
  rw [blocks, range_zero, flatMap_nil, take_nil] at hloop
  unfold tlsHkdfExpand
  rw [if_neg (by omega)]
  exact hloop

lemma tlsHkdfExpandLabel_eq {context : Bytes} {outLen : ℕ} (h : secret ≠ []) (hlabel : label ≠ [])
    (hlabel' : label.length ≤ 249) (hcontext : context.length ≤ 255) (hlen : outLen ≤ 255 * 32) :
    tlsHkdfExpandLabel hash secret label context outLen = some (expandLabel hash.bytes secret label context outLen) := by
  have hpos : 0 < label.length := length_pos_iff.2 hlabel
  unfold tlsHkdfExpandLabel
  rw [if_neg (by omega), if_neg (by omega), tlsHkdfExpand_eq h hlen, expandLabel]
  have hinfo : [UInt8.ofNat (outLen >>> 8), UInt8.ofNat outLen] = be 2 outLen := by
    simp [be, Nat.shiftRight_eq_div_pow]
  have hvec : ∀ b : Bytes, vec 1 b = UInt8.ofNat b.length :: b := fun b => rfl
  rw [hinfo, hvec, length_append]
  rfl

lemma tlsDeriveSecret_eq (h : secret ≠ []) (hlabel : label ≠ []) (hlabel' : label.length ≤ 249) (messages : Bytes) :
    tlsDeriveSecret hash secret label (hash.bytes messages) = some (deriveSecret hash.bytes secret label messages) := by
  have hlen : (hash.bytes messages).length = 32 := hash.length_bytes messages
  unfold tlsDeriveSecret
  rw [if_neg (by omega)]
  exact tlsHkdfExpandLabel_eq h hlabel hlabel' (by omega) (by omega)

/-- **HKDF.**  Extract and expand are those of RFC 5869; more than 255 blocks are refused. -/
theorem hkdf_conforms (hash : Hash) (salt ikm info : Bytes) (okmLen : ℕ) : ∃ prk, tlsHkdfExtract hash salt ikm = some prk ∧
    prk.val = extract hash.bytes salt ikm ∧ tlsHkdfExpand hash prk.val info okmLen =
      if okmLen ≤ 255 * 32 then some (expand hash.bytes prk.val info okmLen) else none := by
  obtain ⟨prk, hprk, hval⟩ := Option.map_eq_some_iff.1 (tlsHkdfExtract_eq hash salt ikm)
  refine ⟨prk, hprk, hval, ?_⟩
  split_ifs with hlen
  · refine tlsHkdfExpand_eq (fun h0 => ?_) hlen
    exact absurd (prk.property.symm.trans (congrArg length h0)) (by decide)
  · exact if_pos (by omega)

/-! ### The buffer of the label -/

/-- The label and the context of a call of `tls_hkdf_expand_label`, with the pointer `context` to `contextLen` bytes or `NULL`. -/
structure LabelArgs where
  label : Bytes
  context : Option Bytes
  contextLen : ℕ
  length_context : ∀ c, context = some c → c.length = contextLen

namespace LabelArgs

def hkdfLabel (a : LabelArgs) (outLen : ℕ) : Bytes :=
  [UInt8.ofNat (outLen >>> 8), UInt8.ofNat outLen] ++ (UInt8.ofNat (6 + a.label.length) :: (ascii "tls13 " ++ a.label)) ++
    (UInt8.ofNat a.contextLen :: if 0 < a.contextLen then a.context.getD [] else [])

def expandLabel (hash : Hash) (a : LabelArgs) (secret : Bytes) (outLen : ℕ) : Option Bytes :=
  if 6 + a.label.length < 7 ∨ 6 + a.label.length > 255 then none
  else if a.contextLen > 255 then none
  else tlsHkdfExpand hash secret (a.hkdfLabel outLen) outLen

/-- The label lies in its array of 512 bytes, it is the encoding of RFC 8446 for the context, and the output is HKDF-Expand of it. -/
def Conforms (hash : Hash) (a : LabelArgs) (secret : Bytes) (outLen : ℕ) : Prop :=
  (a.hkdfLabel outLen).length ≤ 512 ∧ ∃ c, (∀ b, a.context = some b → c = b) ∧
    a.hkdfLabel outLen = be 2 outLen ++ vec 1 (ascii "tls13 " ++ a.label) ++ vec 1 c ∧
    a.expandLabel hash secret outLen = some (Hkdf.expandLabel hash.bytes secret a.label c outLen)

variable {a : LabelArgs} {outLen : ℕ}

lemma hkdfLabel_eq (a : LabelArgs) (outLen : ℕ) : a.hkdfLabel outLen = be 2 outLen ++ vec 1 (ascii "tls13 " ++ a.label) ++
    (UInt8.ofNat a.contextLen :: a.context.getD []) := by
  have hcontext : (if 0 < a.contextLen then a.context.getD [] else []) = a.context.getD [] := by
    split_ifs with h
    · rfl
    · cases hc : a.context with
      | none => rfl
      | some c =>
        have hlen := a.length_context c hc
        exact (length_eq_zero_iff.1 (show c.length = 0 by omega)).symm
  have hlen : be 2 outLen = [UInt8.ofNat (outLen >>> 8), UInt8.ofNat outLen] := by simp [be, Nat.shiftRight_eq_div_pow]
  rw [hkdfLabel, hcontext, hlen, vec, length_append]
  rfl

lemma length_hkdfLabel (a : LabelArgs) (outLen : ℕ) :
    (a.hkdfLabel outLen).length = 10 + a.label.length + (a.context.getD []).length := by
  rw [hkdfLabel_eq]
  simp only [length_append, length_be, length_vec, length_cons]
  change 2 + (1 + (6 + _)) + _ = _
  omega

lemma length_getD (h : a.context = none → a.contextLen = 0) : (a.context.getD []).length = a.contextLen := by
  cases hc : a.context with
  | none => exact (h hc).symm
  | some c => exact a.length_context c hc

lemma contextLen_of_encoding {c : Bytes} (hlen : a.contextLen ≤ 255) (hnull : a.context = none)
    (h : a.hkdfLabel outLen = be 2 outLen ++ vec 1 (ascii "tls13 " ++ a.label) ++ vec 1 c) : a.contextLen = 0 := by
  rw [hkdfLabel_eq, hnull] at h
  obtain ⟨hbyte, hnil⟩ := List.cons.inj (append_cancel_left h)
  have hc : c = [] := hnil.symm
  rw [hc] at hbyte
  have hmod := congrArg UInt8.toNat hbyte
  change a.contextLen % 256 = 0 at hmod
  omega

/-- **When HKDF-Expand-Label stays in its buffer and encodes the label**, for the arguments that it does not reject. -/
theorem conforms_iff (hash : Hash) (a : LabelArgs) (secret : Bytes) (outLen : ℕ) (hsecret : secret ≠ []) (h₁ : 1 ≤ a.label.length)
    (h₂ : a.label.length ≤ 249) (hlen : a.contextLen ≤ 255) (hout : outLen ≤ 8160) :
    a.Conforms hash secret outLen ↔ (a.context = none → a.contextLen = 0) ∧ a.label.length + a.contextLen ≤ 502 := by
  constructor
  · rintro ⟨hfit, c, -, hencoding, -⟩
    have hnull : a.context = none → a.contextLen = 0 := fun hnull => contextLen_of_encoding hlen hnull hencoding
    rw [length_hkdfLabel, length_getD hnull] at hfit
    exact ⟨hnull, by omega⟩
  · rintro ⟨hnull, hfit⟩
    have hgetD := length_getD hnull
    have hencoding : a.hkdfLabel outLen = be 2 outLen ++ vec 1 (ascii "tls13 " ++ a.label) ++ vec 1 (a.context.getD []) := by
      rw [hkdfLabel_eq, ← hgetD]
      rfl
    refine ⟨by rw [length_hkdfLabel]; omega, a.context.getD [], fun b hb => by rw [hb]; rfl, hencoding, ?_⟩
    rw [expandLabel, if_neg (by omega), if_neg (by omega), tlsHkdfExpand_eq hsecret hout, hencoding]
    rfl

theorem conforms_key : Conforms sha256 ⟨ascii "key", none, 0, nofun⟩ [1] 16 :=
  (conforms_iff sha256 _ [1] 16 (by decide) (by decide) (by decide) (by decide) (by decide)).2 ⟨fun _ => rfl, by decide⟩

/-- The longest label and the longest context take 514 bytes; and a context that is `NULL` with a length of 5 is encoded as a length
with nothing behind it. -/
theorem not_conforms : ¬ Conforms sha256 ⟨List.replicate 249 97, some (List.replicate 255 0), 255, fun _ h => Option.some.inj h ▸ List.length_replicate⟩ [1] 16 ∧
    ¬ Conforms sha256 ⟨ascii "key", none, 5, nofun⟩ [1] 16 := by
  refine ⟨fun h => absurd h.1 (by decide +kernel), ?_⟩
  rintro ⟨-, c, -, hencoding, -⟩
  exact absurd (contextLen_of_encoding (by decide) rfl hencoding) (by decide)

end LabelArgs

end Spec

end LwftpCe.Tls
