import LwftpCe.Lib.Memory
import LwftpCe.Lib.Uint

/-!
# Base64

`base64.c`.  What a function writes is a list of bytes, of which `j` counts the length.  The text is read from memory in
groups of four characters, also behind its end.
-/

namespace LwftpCe.Tls

open Lib List

/-! ### The two functions -/

def b64Charset : Bytes := ascii "ABCDEFGHIJKLMNOPQRSTUVWXYZabcdefghijklmnopqrstuvwxyz0123456789+/"

/-- The character `'='`. -/
def pad : UInt8 := 61

def sextets (triple : ℕ) : List ℕ := [triple / 2 ^ 18 % 64, triple / 2 ^ 12 % 64, triple / 2 ^ 6 % 64, triple % 64]

def encodeGroup (a b c : UInt8) : Bytes :=
  (sextets (a.toNat * 2 ^ 16 + b.toNat * 2 ^ 8 + c.toNat)).map fun i => b64Charset.getD i 0

def encodeLoop : Bytes → Bytes
  | [] => []
  | [a] => encodeGroup a 0 0
  | [a, b] => encodeGroup a b 0
  | a :: b :: c :: rest => encodeGroup a b c ++ encodeLoop rest

def modTable : List ℕ := [0, 2, 1]

/-- The text and the result `j`; the padding is written over the last characters. -/
def tlsBase64Encode (inbuf : Bytes) : Bytes × ℕ :=
  let olen := 4 * ((inbuf.length + 2) / 3)
  ((List.range (modTable.getD (inbuf.length % 3) 0)).foldl (fun out i => out.set (olen - 1 - i) pad) (encodeLoop inbuf),
    (encodeLoop inbuf).length)

/-- A character: its place by `strchr`, which also finds the zero behind the table, or `NULL` minus the address of the table. -/
def sextet (table : ℕ) (ch : UInt8) : ℕ := if ch = pad then 0 else ((b64Charset ++ [0]).idxOf? ch).getD (2 ^ 32 - table)

def octets : List ℕ → Bytes
  | a :: b :: c :: d :: rest =>
    let triple := a * 2 ^ 18 + b * 2 ^ 12 + c * 2 ^ 6 + d
    UInt8.ofNat (triple / 2 ^ 16) :: UInt8.ofNat (triple / 2 ^ 8) :: UInt8.ofNat triple :: octets rest
  | _ => []

def putByte (olen : ℕ) (out : Bytes) (b : UInt8) : Bytes := if out.length < olen then out ++ [b] else out

def decrement (n : ℕ) : ℕ := if n = 0 then uintRange - 1 else n - 1

def tlsBase64Decode (table : ℕ) (inbuf : Mem) (len : ℕ) : Bytes :=
  let olen := len / 4 * 3
  let olen := if inbuf (decrement len) = pad then decrement olen else olen
  let olen := if inbuf (decrement (decrement len)) = pad then decrement olen else olen
  (List.range ((len + 3) / 4)).foldl (fun out k => (octets ((inbuf.read (4 * k) 4).map (sextet table))).foldl (putByte olen) out) []

/-! ### One group -/

variable (table : ℕ) {a b c ch : UInt8} {bs : Bytes}

lemma sextet_charset : ∀ i < 64, b64Charset.getD i 0 ≠ pad ∧ (b64Charset ++ [0]).idxOf? (b64Charset.getD i 0) = some i := by
  decide +kernel

lemma sextets_lt (triple : ℕ) : ∀ i ∈ sextets triple, i < 64 := by
  intro i hi
  simp only [sextets, mem_cons, not_mem_nil, or_false] at hi
  omega

lemma sextet_encodeGroup : (encodeGroup a b c).map (sextet table) = sextets (a.toNat * 2 ^ 16 + b.toNat * 2 ^ 8 + c.toNat) := by
  unfold encodeGroup
  rw [map_map]
  refine (map_congr_left fun i hi => ?_).trans (map_id _)
  obtain ⟨hpad, hidx⟩ := sextet_charset i (sextets_lt _ i hi)
  rw [Function.comp_apply, sextet, if_neg hpad, hidx]
  rfl

lemma octets_sextets {t : ℕ} (ht : t < 2 ^ 24) (l : List ℕ) :
    octets (sextets t ++ l) = UInt8.ofNat (t / 2 ^ 16) :: UInt8.ofNat (t / 2 ^ 8) :: UInt8.ofNat t :: octets l := by
  have hsum : t / 2 ^ 18 % 64 * 2 ^ 18 + t / 2 ^ 12 % 64 * 2 ^ 12 + t / 2 ^ 6 % 64 * 2 ^ 6 + t % 64 = t := by omega
  unfold sextets
  rw [cons_append, cons_append, cons_append, cons_append, nil_append, octets, hsum]

lemma octets_encodeGroup (l : Bytes) :
    octets ((encodeGroup a b c ++ l).map (sextet table)) = a :: b :: c :: octets (l.map (sextet table)) := by
  have ha := a.toNat_lt
  have hb := b.toNat_lt
  have hc := c.toNat_lt
  have hbyte : ∀ (x : UInt8) (n : ℕ), n % 256 = x.toNat → UInt8.ofNat n = x := fun x n h =>
    UInt8.toNat.inj (by rw [UInt8.toNat_ofNat', h])
  rw [map_append, sextet_encodeGroup, octets_sextets (by omega), hbyte a _ (by omega), hbyte b _ (by omega), hbyte c _ (by omega)]

/-! ### The text -/

lemma octets_encodeLoop (bs : Bytes) :
    octets ((encodeLoop bs).map (sextet table)) = bs ++ replicate (modTable.getD (bs.length % 3) 0) 0 := by
  induction bs using encodeLoop.induct with
  | case1 => rfl
  | case2 | case3 => rw [encodeLoop, ← append_nil (encodeGroup ..), octets_encodeGroup]; rfl
  | case4 a b c rest ih =>
    rw [encodeLoop, octets_encodeGroup, ih, show (a :: b :: c :: rest).length = rest.length + 3 from rfl,
      Nat.add_mod_right]
    rfl

lemma length_encodeLoop (bs : Bytes) : (encodeLoop bs).length = 4 * ((bs.length + 2) / 3) := by
  induction bs using encodeLoop.induct with
  | case1 => rfl
  | case2 | case3 => simp [encodeLoop, encodeGroup, sextets]
  | case4 a b c rest ih =>
    rw [encodeLoop, length_append]
    simp only [encodeGroup, sextets, length_map, length_cons, length_nil]
    omega

lemma mem_encodeGroup (hch : ch ∈ encodeGroup a b c) : ch ∈ b64Charset := by
  have hget : ∀ i < 64, b64Charset.getD i 0 ∈ b64Charset := by decide +kernel
  obtain ⟨i, hi, rfl⟩ := mem_map.1 hch
  exact hget i (sextets_lt _ i hi)

/-- The characters that the padding replaces stand for zero. -/
lemma encodeLoop_tail (bs : Bytes) : ∃ text : Bytes, encodeLoop bs = text ++ replicate (modTable.getD (bs.length % 3) 0) 65 ∧
    ∀ ch ∈ text, ch ∈ b64Charset := by
  induction bs using encodeLoop.induct with
  | case1 => exact ⟨[], rfl, fun ch hch => absurd hch not_mem_nil⟩
  | case2 a =>
    refine ⟨(encodeGroup a 0 0).take 2, ?_, fun ch hch => mem_encodeGroup (mem_of_mem_take hch)⟩
    have h3 : (a.toNat * 2 ^ 16 + (0 : UInt8).toNat * 2 ^ 8 + (0 : UInt8).toNat) / 2 ^ 6 % 64 = 0 := by simp; omega
    have h4 : (a.toNat * 2 ^ 16 + (0 : UInt8).toNat * 2 ^ 8 + (0 : UInt8).toNat) % 64 = 0 := by simp; omega
    rw [encodeLoop, encodeGroup, sextets, h3, h4]
    rfl
  | case3 a b =>
    refine ⟨(encodeGroup a b 0).take 3, ?_, fun ch hch => mem_encodeGroup (mem_of_mem_take hch)⟩
    have h4 : (a.toNat * 2 ^ 16 + b.toNat * 2 ^ 8 + (0 : UInt8).toNat) % 64 = 0 := by simp; omega
    rw [encodeLoop, encodeGroup, sextets, h4]
    rfl
  | case4 a b c rest ih =>
    obtain ⟨text, htext, hmem⟩ := ih
    refine ⟨encodeGroup a b c ++ text, ?_, fun ch hch => (mem_append.1 hch).elim mem_encodeGroup (hmem ch)⟩
    rw [encodeLoop, htext, append_assoc, show (a :: b :: c :: rest).length = rest.length + 3 from rfl, Nat.add_mod_right]

lemma foldl_set_last (x y : UInt8) (k : ℕ) : ∀ text : Bytes,
    (List.range k).foldl (fun out i => out.set (text.length + k - 1 - i) y) (text ++ replicate k x) = text ++ replicate k y := by
  induction k with
  | zero => exact fun _ => rfl
  | succ k ih =>
    intro text
    have hrest := ih (text ++ [x])
    rw [length_append, length_singleton, append_assoc, singleton_append, ← replicate_succ, append_assoc, Nat.add_right_comm] at hrest
    rw [range_succ, foldl_append, ← Nat.add_assoc, hrest, foldl_cons, show text.length + k + 1 - 1 - k = text.length by omega,
      set_append_right _ _ (Nat.le_refl _), Nat.sub_self]
    rfl

lemma encode_eq (bs : Bytes) : ∃ text : Bytes, (∀ ch ∈ text, ch ∈ b64Charset) ∧
    encodeLoop bs = text ++ replicate (modTable.getD (bs.length % 3) 0) 65 ∧
    (tlsBase64Encode bs).1 = text ++ replicate (modTable.getD (bs.length % 3) 0) pad := by
  obtain ⟨text, htext, hmem⟩ := encodeLoop_tail bs
  refine ⟨text, hmem, htext, ?_⟩
  have hlen := length_encodeLoop bs
  rw [htext, length_append, length_replicate] at hlen
  unfold tlsBase64Encode
  rw [← hlen, htext]
  exact foldl_set_last 65 pad _ text

/-! ### Reading it back -/

lemma foldl_putByte (olen : ℕ) (l out : Bytes) (h : out.length ≤ olen) : l.foldl (putByte olen) out = (out ++ l).take olen := by
  induction l generalizing out with
  | nil => rw [foldl_nil, append_nil, take_of_length_le h]
  | cons b l ih =>
    rw [foldl_cons, putByte]
    split_ifs with hlt
    · rw [ih _ (by simp; omega), append_assoc, singleton_append]
    · rw [ih _ h, take_append_of_le_length (by omega), take_append_of_le_length (by omega)]

lemma octets_append (l : List ℕ) (k : ℕ) : ∀ l' : List ℕ, l'.length = 4 * k → octets (l' ++ l) = octets l' ++ octets l := by
  induction k with
  | zero =>
    intro l' h
    rw [length_eq_zero_iff.1 h]
    rfl
  | succ k ih =>
    rintro (_ | ⟨x, _ | ⟨y, _ | ⟨z, _ | ⟨w, l'⟩⟩⟩⟩) h <;> simp only [length_cons, length_nil] at h
    · omega
    · omega
    · omega
    · omega
    · exact congrArg (_ :: _ :: _ :: ·) (ih l' (by omega))

lemma decode_groups (inbuf : Mem) (g : ℕ) : (List.range g).flatMap (fun k => octets ((inbuf.read (4 * k) 4).map (sextet table))) =
    octets ((inbuf.read 0 (4 * g)).map (sextet table)) := by
  induction g with
  | zero => rfl
  | succ g ih =>
    rw [range_succ, flatMap_append, ih, Nat.mul_succ, Mem.read_add, map_append, octets_append _ g _ (by simp)]
    simp

lemma map_sextet_pad (text : Bytes) (k : ℕ) :
    (text ++ replicate k pad).map (sextet table) = (text ++ replicate k 65).map (sextet table) := by
  rw [map_append, map_append, map_replicate, map_replicate]
  rfl

/-- The limit for the output, by the two tests at the end of the text. -/
lemma decode_limit {text : Bytes} {inbuf : Mem} {k g : ℕ} (hk : k < 3) (hg : 0 < g) (hmem : ∀ ch ∈ text, ch ∈ b64Charset)
    (hlen : text.length + k = 4 * g) (hread : inbuf.read 0 (4 * g) = text ++ replicate k pad) :
    (if inbuf (decrement (decrement (4 * g))) = pad then decrement (if inbuf (decrement (4 * g)) = pad then decrement (4 * g / 4 * 3)
      else 4 * g / 4 * 3) else if inbuf (decrement (4 * g)) = pad then decrement (4 * g / 4 * 3) else 4 * g / 4 * 3) = 3 * g - k := by
  have hchar : ∀ i < 4 * g, (inbuf i = pad ↔ text.length ≤ i) := by
    intro i hi
    have hget := congrArg (·[i]?) hread
    simp only [Mem.getElem?_read, if_pos hi, Nat.zero_add] at hget
    rcases Nat.lt_or_ge i text.length with hlt | hge
    · rw [getElem?_append_left hlt, getElem?_eq_getElem hlt, Option.some_inj] at hget
      refine iff_of_false (fun heq => ?_) (Nat.not_le.2 hlt)
      exact absurd (hmem pad (heq ▸ hget ▸ getElem_mem hlt)) (by decide +kernel)
    · rw [getElem?_append_right hge, getElem?_replicate_of_lt (by omega), Option.some_inj] at hget
      exact iff_of_true hget hge
  have h1 : decrement (4 * g) = 4 * g - 1 := if_neg (by omega)
  have h2 : decrement (4 * g - 1) = 4 * g - 2 := if_neg (by omega)
  rw [h1, h2]
  simp only [hchar (4 * g - 1) (by omega), hchar (4 * g - 2) (by omega)]
  unfold decrement
  split_ifs <;> omega

/-- **Base64.** The text of `n` bytes has 4 characters for every three bytes that are begun, the last ones the padding, and
is read back as the bytes. -/
theorem base64_round_trip (bs : Bytes) (h : bs ≠ []) :
    (tlsBase64Encode bs).2 = 4 * ((bs.length + 2) / 3) ∧ (tlsBase64Encode bs).1.length = (tlsBase64Encode bs).2 ∧
      (∃ text, (tlsBase64Encode bs).1 = text ++ replicate ((3 - bs.length % 3) % 3) pad ∧ ∀ ch ∈ text, ch ∈ b64Charset) ∧
      ∀ inbuf : Mem, inbuf.read 0 (tlsBase64Encode bs).2 = (tlsBase64Encode bs).1 → tlsBase64Decode table inbuf (tlsBase64Encode bs).2 = bs := by
  obtain ⟨text, hmem, hloop, hout⟩ := encode_eq bs
  have hpad : ∀ r < 3, modTable.getD r 0 = (3 - r) % 3 := by decide
  have hj : (tlsBase64Encode bs).2 = 4 * ((bs.length + 2) / 3) := length_encodeLoop bs
  have hlen := length_encodeLoop bs
  have hbytes := octets_encodeLoop table bs
  have hpos := length_pos_of_ne_nil h
  rw [hpad _ (Nat.mod_lt _ (by decide))] at hloop hout hbytes
  rw [hloop, ← map_sextet_pad, ← hout] at hbytes
  rw [hloop, length_append, length_replicate] at hlen
  refine ⟨hj, by rw [hout, hj, length_append, length_replicate, hlen], ⟨text, hout, hmem⟩, fun inbuf hread => ?_⟩
  rw [hj] at hread ⊢
  unfold tlsBase64Decode
  dsimp only
  rw [decode_limit (by omega) (by omega) hmem hlen (hread.trans hout), show (4 * ((bs.length + 2) / 3) + 3) / 4 = (bs.length + 2) / 3 by omega,
    ← foldl_flatMap, decode_groups, hread, hbytes, foldl_putByte _ _ _ (Nat.zero_le _), nil_append]
  exact take_left' (by omega)

theorem base64_round_trip_ftp : tlsBase64Decode 0 (Mem.ofBytes (ascii "ZnRw")) 4 = ascii "ftp" :=
  (base64_round_trip 0 (ascii "ftp") (by decide)).2.2.2 (Mem.ofBytes (ascii "ZnRw")) (by decide +kernel)

end LwftpCe.Tls
