import LwftpCe.Lib.CString

/-!
# The address of the server

`util_ParseAddr`, which reads the address that is typed in.  A string is the list of its bytes before the `NUL`.
-/

namespace LwftpCe.App

open Lib List

variable {rest d : Bytes} {s v : Bytes}

/-! ### The function -/

def parseAddrFrom : ℕ → Bytes → Bytes → ℕ × Bytes
  | 0, _, addr => (0, addr)
  | n + 1, s, addr =>
    let r := strtoul s
    let addr := addr ++ [UInt8.ofNat r.1]
    if r.2.head? = some 46 then parseAddrFrom n r.2.tail addr
    else if ¬ (r.2.head? = none ∧ n = 0) then (1, addr)
    else parseAddrFrom n r.2 addr

def utilParseAddr (s : Bytes) : ℕ × Bytes := parseAddrFrom 4 s []

/-! ### Dotted quads -/

def IsOctet (d : Bytes) : Prop := 1 ≤ d.length ∧ d.length ≤ 3 ∧ (∀ x ∈ d, isDigit x = true) ∧ decimal d ≤ 255

def IsQuad (s v : Bytes) : Prop :=
  ∃ d₀ d₁ d₂ d₃, IsOctet d₀ ∧ IsOctet d₁ ∧ IsOctet d₂ ∧ IsOctet d₃ ∧ s = d₀ ++ 46 :: (d₁ ++ 46 :: (d₂ ++ 46 :: d₃)) ∧
    v = [d₀, d₁, d₂, d₃].map fun d => UInt8.ofNat (decimal d)

/-! ### What is accepted -/

def IsField (f : Bytes) : Prop :=
  f = [] ∨ ∃ sp sg ds : Bytes, f = sp ++ (sg ++ ds) ∧ (∀ x ∈ sp, isSpace x = true) ∧ (sg = [] ∨ sg = [43] ∨ sg = [45]) ∧
    ds ≠ [] ∧ ∀ x ∈ ds, isDigit x = true

/-- `n` fields with a dot behind each of them, which the fourth does not need at the end of the string.  What stands behind the
fourth dot does not matter. -/
def LooseFields : ℕ → Bytes → Prop
  | 0, _ => True
  | n + 1, s => ∃ f rest, IsField f ∧ s = f ++ rest ∧ ((∃ t, rest = 46 :: t ∧ LooseFields n t) ∨ (rest = [] ∧ n = 0))

lemma sign_split (m : Bytes) : ∃ sg : Bytes, (sg = [] ∨ sg = [43] ∨ sg = [45]) ∧ m = sg ++ (sign m).2 := by
  unfold sign
  split
  · exact ⟨[45], .inr (.inr rfl), rfl⟩
  · exact ⟨[43], .inr (.inl rfl), rfl⟩
  · exact ⟨[], .inl rfl, rfl⟩

lemma strtoul_split (s : Bytes) : ∃ f, IsField f ∧ s = f ++ (strtoul s).2 := by
  obtain ⟨sg, hsg, hsplit⟩ := sign_split (s.dropWhile isSpace)
  unfold strtoul
  generalize sign (s.dropWhile isSpace) = r at hsplit
  obtain ⟨neg, t⟩ := r
  dsimp only at hsplit ⊢
  by_cases hds : t.takeWhile isDigit = []
  · rw [if_pos hds]
    exact ⟨[], .inl rfl, rfl⟩
  · rw [if_neg hds]
    refine ⟨s.takeWhile isSpace ++ (sg ++ t.takeWhile isDigit), .inr ⟨_, sg, _, rfl, ?_, hsg, hds, ?_⟩, ?_⟩
    · exact fun x hx => mem_takeWhile_imp hx
    · exact fun x hx => mem_takeWhile_imp hx
    · rw [append_assoc, append_assoc, takeWhile_append_dropWhile, ← hsplit, takeWhile_append_dropWhile]

lemma head_not_digit (hrest : rest = [] ∨ ∃ t, rest = 46 :: t) : ∀ x ∈ rest.head?, isDigit x = false := by
  rcases hrest with rfl | ⟨t, rfl⟩
  · exact nofun
  · rintro x ⟨⟩
    rfl

lemma strtoul_field {f : Bytes} (hf : IsField f) (hrest : rest = [] ∨ ∃ t, rest = 46 :: t) : (strtoul (f ++ rest)).2 = rest := by
  rcases hf with rfl | ⟨sp, sg, ds, rfl, hsp, hsg, hne, hds⟩
  · rcases hrest with rfl | ⟨t, rfl⟩
    · rfl
    · rfl
  · obtain ⟨htake, hdrop⟩ := span_digits hds (head_not_digit hrest)
    obtain ⟨x, ds, rfl⟩ := exists_cons_of_ne_nil hne
    have hx := hds x mem_cons_self
    have hspace : (sp ++ (sg ++ x :: ds) ++ rest).dropWhile isSpace = sg ++ (x :: ds ++ rest) := by
      rw [append_assoc, dropWhile_append_of_pos hsp]
      rcases hsg with rfl | rfl | rfl
      · exact dropWhile_cons_of_neg (by rw [not_isSpace_of_isDigit hx]; decide)
      · rfl
      · rfl
    have hsign : (sign (sg ++ (x :: ds ++ rest))).2 = x :: ds ++ rest := by
      rcases hsg with rfl | rfl | rfl
      · exact congrArg Prod.snd (sign_of_isDigit hx _)
      · rfl
      · rfl
    unfold strtoul
    rw [hspace]
    dsimp only
    rw [hsign, htake, hdrop, if_neg hne]

lemma strtoul_octet (hd : IsOctet d) (hrest : rest = [] ∨ ∃ t, rest = 46 :: t) : strtoul (d ++ rest) = (decimal d, rest) := by
  obtain ⟨hlen, -, hds, hle⟩ := hd
  refine strtoul_digits (length_pos_iff.1 hlen) hds (head_not_digit hrest) ?_
  unfold ulongMax
  omega

lemma parseAddrFrom_eq_zero_iff (n : ℕ) (s addr : Bytes) : (parseAddrFrom n s addr).1 = 0 ↔ LooseFields n s := by
  induction n generalizing s addr with
  | zero => exact ⟨fun _ => trivial, fun _ => rfl⟩
  | succ n ih =>
    unfold parseAddrFrom LooseFields
    dsimp only
    constructor
    · intro h
      obtain ⟨f, hf, hs⟩ := strtoul_split s
      split_ifs at h with hdot hend
      · obtain ⟨t, ht⟩ := List.head?_eq_some_iff.1 hdot
        rw [ht, ih] at h
        exact ⟨f, _, hf, hs, .inl ⟨t, ht, h⟩⟩
      · obtain ⟨hnil, hn⟩ := hend
        exact ⟨f, _, hf, hs, .inr ⟨List.head?_eq_none_iff.1 hnil, hn⟩⟩
    · rintro ⟨f, rest, hf, rfl, ⟨t, rfl, ht⟩ | ⟨rfl, rfl⟩⟩
      · rw [strtoul_field hf (.inr ⟨t, rfl⟩), if_pos List.head?_cons, ih]
        exact ht
      · rw [strtoul_field hf (.inl rfl), if_neg nofun]
        rfl

lemma parseAddrFrom_octet (hd : IsOctet d) (n : ℕ) (t addr : Bytes) :
    parseAddrFrom (n + 1) (d ++ 46 :: t) addr = parseAddrFrom n t (addr ++ [UInt8.ofNat (decimal d)]) := by
  rw [parseAddrFrom, strtoul_octet hd (.inr ⟨t, rfl⟩)]
  rfl

lemma utilParseAddr_quad (h : IsQuad s v) : utilParseAddr s = (0, v) := by
  obtain ⟨d0, d1, d2, d3, h0, h1, h2, h3, rfl, rfl⟩ := h
  have hlast := strtoul_octet h3 (.inl rfl)
  rw [append_nil] at hlast
  rw [utilParseAddr, parseAddrFrom_octet h0, parseAddrFrom_octet h1, parseAddrFrom_octet h2, parseAddrFrom, hlast]
  rfl

lemma count_dots_octet (hd : IsOctet d) : d.count 46 = 0 := by
  rw [count_eq_zero]
  intro hmem
  exact absurd (hd.2.2.1 46 hmem) (by decide)

lemma count_dots_quad (h : IsQuad s v) : s.count 46 = 3 := by
  obtain ⟨d0, d1, d2, d3, h0, h1, h2, h3, rfl, rfl⟩ := h
  simp only [count_append, count_cons_self, count_dots_octet h0, count_dots_octet h1, count_dots_octet h2,
    count_dots_octet h3]

/-- **Which strings are parsed as they should be**: the dotted quads, and those without four fields. -/
theorem parse_exact_iff (s : Bytes) : (((utilParseAddr s).1 = 0 ↔ ∃ v, IsQuad s v) ∧ ∀ v, IsQuad s v → (utilParseAddr s).2 = v) ↔
      ((∃ v, IsQuad s v) ∨ ¬ LooseFields 4 s) := by
  rw [← parseAddrFrom_eq_zero_iff 4 s []]
  constructor
  · rintro ⟨h, -⟩
    by_cases hquad : ∃ v, IsQuad s v
    · exact .inl hquad
    · exact .inr fun h0 => hquad (h.1 h0)
  · intro h
    refine ⟨⟨fun h0 => h.resolve_right (not_not.2 h0), ?_⟩, ?_⟩
    · rintro ⟨v, hv⟩
      rw [utilParseAddr_quad hv]
    · intro v hv
      rw [utilParseAddr_quad hv]

/-- `1.2.3.4.` is accepted. -/
theorem parse_trailing_dot : utilParseAddr (ascii "1.2.3.4.") = (0, [1, 2, 3, 4]) ∧ ¬ ∃ v, IsQuad (ascii "1.2.3.4.") v := by
  refine ⟨by decide, ?_⟩
  rintro ⟨v, hv⟩
  exact absurd (count_dots_quad hv) (by decide)

end LwftpCe.App
