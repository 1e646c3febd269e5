import Mathlib.Data.List.Basic
import Mathlib.Data.List.TakeWhile
import Mathlib.Tactic.Ring

/-!
# Bytes, and the string functions of the C library on them

A pointer into memory is the list of the bytes from it on; the end of the list is the end of what is known of the
memory, and reading stops there as it would at a `NUL`.
-/

namespace LwftpCe.Lib

open List

variable {s m : Bytes} {x : UInt8} {ds rest : Bytes} {p : UInt8 → Bool}

abbrev Bytes := List UInt8

def ascii (s : String) : Bytes := s.toList.map fun c => UInt8.ofNat c.toNat

def cstr (m : Bytes) : Bytes := m.takeWhile (· ≠ 0)

def strchr (c : UInt8) : Bytes → Option Bytes
  | [] => none
  | x :: m => if x = c then some (x :: m) else if x = 0 then none else strchr c m

def strstr (pat : Bytes) : Bytes → Option Bytes
  | [] => if pat = [] then some [] else none
  | x :: m => if pat <+: x :: m then some (x :: m) else strstr pat m

def cutLast (c : UInt8) (s : Bytes) : Option Bytes :=
  if c ∈ s then some ((s.reverse.dropWhile (· ≠ c)).tail.reverse) else none

lemma cstr_append_nul (s : Bytes) (h : 0 ∉ s) (m : Bytes) : cstr (s ++ 0 :: m) = s := by
  have hs : ∀ x ∈ s, (decide (x ≠ 0)) = true := by
    intro x hx
    simp only [decide_eq_true_eq]
    rintro rfl
    exact h hx
  unfold cstr
  rw [takeWhile_append_of_pos hs]
  simp

lemma cstr_of_nul_free (h : 0 ∉ s) : cstr s = s := by
  unfold cstr
  rw [takeWhile_eq_self_iff]
  intro x hx
  simp only [decide_eq_true_eq]
  rintro rfl
  exact h hx

lemma cstr_append_replicate (h : 0 ∉ s) (n : ℕ) : cstr (s ++ replicate n 0) = s := by
  cases n with
  | zero => simpa using cstr_of_nul_free h
  | succ n => exact cstr_append_nul s h _

lemma nul_notMem_cstr (m : Bytes) : (0 : UInt8) ∉ cstr m := by
  intro h
  have := mem_takeWhile_imp h
  simp at this

lemma cutLast_append (c : UInt8) (s t : Bytes) (ht : c ∉ t) : cutLast c (s ++ c :: t) = some s := by
  have hrev : ∀ x ∈ t.reverse, (decide (x ≠ c)) = true := by
    intro x hx
    simp only [decide_eq_true_eq]
    rintro rfl
    exact ht (mem_reverse.1 hx)
  unfold cutLast
  simp only [reverse_append, reverse_cons, append_assoc]
  rw [dropWhile_append_of_pos hrev]
  simp

lemma length_cutLast_le {c : UInt8} {t : Bytes} (h : cutLast c s = some t) : t.length ≤ s.length := by
  obtain ⟨-, h⟩ := Option.ite_none_right_eq_some.1 h
  rw [← Option.some.inj h, length_reverse, length_tail]
  have hle := (dropWhile_sublist (fun x => decide (x ≠ c)) (l := s.reverse)).length_le
  rw [length_reverse] at hle
  exact (Nat.sub_le _ _).trans hle

/-! ### Numbers -/

def isSpace (c : UInt8) : Bool := c = 32 || (9 ≤ c && c ≤ 13)

def isDigit (c : UInt8) : Bool := 48 ≤ c && c ≤ 57

def decimal (ds : Bytes) : ℕ := ds.foldl (fun v d => 10 * v + (d.toNat - 48)) 0

def sign : Bytes → Bool × Bytes
  | 45 :: m => (true, m)
  | 43 :: m => (false, m)
  | m => (false, m)

def ulongMax : ℕ := 2 ^ 32 - 1

def strtoul (m : Bytes) : ℕ × Bytes :=
  let (neg, t) := sign (m.dropWhile isSpace)
  let ds := t.takeWhile isDigit
  if ds = [] then (0, m)
  else
    let v := decimal ds
    (if v > ulongMax then ulongMax else if neg then (2 ^ 32 - v) % 2 ^ 32 else v, t.dropWhile isDigit)

example : strtoul [50, 50, 54, 32, 79, 75] = (226, [32, 79, 75]) := by decide
example : strtoul [32, 45, 53] = (4294967291, []) := by decide

lemma not_isSpace_of_isDigit (h : isDigit x = true) : isSpace x = false := by
  simp only [isDigit, isSpace, Bool.and_eq_true, decide_eq_true_eq, Bool.or_eq_false_iff, Bool.and_eq_false_iff,
    decide_eq_false_iff_not, UInt8.le_iff_toNat_le, ← UInt8.toNat_inj] at h ⊢
  have h1 : (48 : UInt8).toNat = 48 := rfl
  have h2 : (32 : UInt8).toNat = 32 := rfl
  have h3 : (13 : UInt8).toNat = 13 := rfl
  omega

lemma sign_of_isDigit (h : isDigit x = true) (m : Bytes) : sign (x :: m) = (false, x :: m) := by
  unfold sign
  split
  · next heq =>
    cases heq
    exact absurd h (by decide)
  · next heq =>
    cases heq
    exact absurd h (by decide)
  · rfl

lemma span_digits (hds : ∀ x ∈ ds, isDigit x = true) (hrest : ∀ x ∈ rest.head?, isDigit x = false) :
    (ds ++ rest).takeWhile isDigit = ds ∧ (ds ++ rest).dropWhile isDigit = rest := by
  rw [takeWhile_append_of_pos hds, dropWhile_append_of_pos hds]
  cases rest with
  | nil => exact ⟨append_nil ds, rfl⟩
  | cons x rest =>
    have hx : ¬ isDigit x = true := by rw [hrest x rfl]; decide
    rw [takeWhile_cons_of_neg hx, dropWhile_cons_of_neg hx]
    exact ⟨append_nil ds, rfl⟩

lemma strtoul_digits (hne : ds ≠ []) (hds : ∀ x ∈ ds, isDigit x = true)
    (hrest : ∀ x ∈ rest.head?, isDigit x = false) (hmax : decimal ds ≤ ulongMax) :
    strtoul (ds ++ rest) = (decimal ds, rest) := by
  obtain ⟨htake, hdrop⟩ := span_digits hds hrest
  obtain ⟨x, ds, rfl⟩ := exists_cons_of_ne_nil hne
  have hx := hds x mem_cons_self
  have hspace : (x :: ds ++ rest).dropWhile isSpace = x :: ds ++ rest :=
    dropWhile_cons_of_neg (by rw [not_isSpace_of_isDigit hx]; decide)
  have hsign : sign (x :: ds ++ rest) = (false, x :: ds ++ rest) := sign_of_isDigit hx _
  unfold strtoul
  rw [hspace, hsign]
  dsimp only
  rw [htake, hdrop, if_neg hne, if_neg (Nat.not_lt.2 hmax), if_neg Bool.false_ne_true]

/-- What is behind the spaces, the sign and the digits at `m`.  Where there is something, reading a number does not run past
the end of `m`. -/
def unread (m : Bytes) : Bytes := (sign (m.dropWhile isSpace)).2.dropWhile isDigit

lemma sign_append (hm : m ≠ []) (a : Bytes) : sign (m ++ a) = ((sign m).1, (sign m).2 ++ a) := by
  obtain ⟨x, m, rfl⟩ := exists_cons_of_ne_nil hm
  by_cases h1 : x = 45
  · subst h1
    rfl
  · by_cases h2 : x = 43
    · subst h2
      rfl
    · simp [sign, h1, h2]

lemma dropWhile_append_left (hm : m.dropWhile p ≠ []) (a : Bytes) : (m ++ a).dropWhile p = m.dropWhile p ++ a := by
  rw [dropWhile_append, if_neg (by simpa using hm)]

lemma takeWhile_append_left (hm : m.dropWhile p ≠ []) (a : Bytes) : (m ++ a).takeWhile p = m.takeWhile p := by
  have hlen : (m.takeWhile p).length ≠ m.length := by
    intro h
    have := congrArg List.length (takeWhile_append_dropWhile (p := p) (l := m))
    rw [length_append] at this
    exact hm (length_eq_zero_iff.1 (by omega))
  rw [takeWhile_append, if_neg hlen]

lemma strtoul_append (hm : unread m ≠ []) (a : Bytes) : strtoul (m ++ a) = ((strtoul m).1, (strtoul m).2 ++ a) := by
  have hsp : m.dropWhile isSpace ≠ [] := by
    intro h
    simp [unread, h, sign] at hm
  have ht := takeWhile_append_left hm a
  have hd := dropWhile_append_left hm a
  unfold strtoul
  rw [dropWhile_append_left hsp, sign_append hsp]
  simp only [ht, hd]
  split <;> rfl

lemma sign_eq_nil (h : (sign (x :: m)).2 = []) : m = [] := by
  by_cases h1 : x = 45
  · subst h1
    exact h
  · by_cases h2 : x = 43
    · subst h2
      exact h
    · simp [sign, h1, h2] at h

lemma unread_tail (hm : unread m = []) : unread (strtoul m).2.tail = [] := by
  unfold strtoul
  simp only
  split
  · next hds =>
    -- no number: `m` consists of spaces, and perhaps a sign at the end
    cases m with
    | nil => rfl
    | cons x m =>
      by_cases hx : isSpace x
      · simpa [unread, hx] using hm
      · simp only [unread, dropWhile_cons_of_neg hx] at hm hds
        have ht : (sign (x :: m)).2 = [] := by
          rw [← takeWhile_append_dropWhile (l := (sign (x :: m)).2), hds, hm]
          rfl
        rw [sign_eq_nil ht]
        rfl
  · exact (congrArg (fun l => unread l.tail) hm).trans rfl

lemma head_of_unread (hm : unread m = []) : (strtoul m).2.head? ≠ some 41 := by
  unfold strtoul
  simp only
  split
  · next hds =>
    rintro hh
    obtain ⟨m, rfl⟩ : ∃ m', m = 41 :: m' := by
      cases m with
      | nil => cases hh
      | cons x m => exact ⟨m, by simpa using hh⟩
    cases hm
  · rw [show (sign (m.dropWhile isSpace)).2.dropWhile isDigit = [] from hm]
    simp

/-! ### Lines of a stream -/

def crlf : Bytes := [13, 10]

/-- The lines that CR LF ends in the bytes `bs` of a stream behind the unfinished line `part`, and the unfinished line
that is left. -/
def frame : Bytes → Bytes → List Bytes × Bytes
  | part, [] => ([], part)
  | part, b :: bs =>
    if b = 10 ∧ part.getLast? = some 13 then (part.dropLast :: (frame [] bs).1, (frame [] bs).2)
    else frame (part ++ [b]) bs

lemma frame_line {part l : Bytes} (h : ¬ crlf <:+: part ++ l) : frame part (l ++ crlf) = ([part ++ l], []) := by
  induction l generalizing part with
  | nil => simp [crlf, frame]
  | cons b l ih =>
    have hb : ¬ (b = 10 ∧ part.getLast? = some 13) := by
      rintro ⟨rfl, hlast⟩
      obtain ⟨init, rfl⟩ := getLast?_eq_some_iff.1 hlast
      exact h ⟨init, l, by simp [crlf]⟩
    rw [cons_append, frame, if_neg hb, ih (by simpa using h)]
    simp

lemma crlf_infix_append {a l : Bytes} (ha : 13 ∉ a) (h : crlf <:+: a ++ l) : crlf <:+: l := by
  induction a with
  | nil => exact h
  | cons b a ih =>
    rw [mem_cons, not_or] at ha
    rcases infix_cons_iff.1 h with h | h
    · exact absurd (cons_prefix_cons.1 h).1 ha.1
    · exact ih ha.2 h

end LwftpCe.Lib
