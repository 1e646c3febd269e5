import LwftpCe.Lib.Memory
import Mathlib.Data.List.Pairwise
import Mathlib.Data.Nat.Bitwise

/-!
# Bitmaps

Bit `i` of a memory is bit `i % 8` of the byte `i / 8`.  `setBits` and `clearBits` change the bits of an interval one by
one, `count` is the number of set bits below a bound, and `findRun` is the first-fit search for an interval of clear bits:
`findRun_some` and `findRun_none` say that it finds one exactly if there is one.  `Tiled` says that the set bits are the
union of disjoint intervals; `Tiled.take` and `Tiled.give` add an interval and remove one.
-/

namespace LwftpCe.Lib.Bitmap

open List Function Nat

def mask (i : ℕ) : UInt8 := 1 <<< UInt8.ofNat (i % 8)

def test (m : Mem) (i : ℕ) : Bool := m (i / 8) &&& mask i ≠ 0

def setBit (m : Mem) (i : ℕ) : Mem := Function.update m (i / 8) (m (i / 8) ||| mask i)

def clearBit (m : Mem) (i : ℕ) : Mem := Function.update m (i / 8) (m (i / 8) &&& ~~~ mask i)

def setBits (m : Mem) (a n : ℕ) : Mem := (List.range n).foldl (fun m j => setBit m (a + j)) m
def clearBits (m : Mem) (a n : ℕ) : Mem := (List.range n).foldl (fun m j => clearBit m (a + j)) m

def count (m : Mem) (N : ℕ) : ℕ := (List.range N).countP (test m)

variable {m : Mem} {a n N i j : ℕ}

/-! ### Single bits -/

lemma toNat_mask (i : ℕ) : (mask i).toNat = 2 ^ (i % 8) := by
  have h : ∀ k < 8, ((1 : UInt8) <<< UInt8.ofNat k).toNat = 2 ^ k := by decide
  exact h _ (mod_lt _ (by decide))

lemma test_eq (m : Mem) (i : ℕ) : test m i = (m (i / 8)).toNat.testBit (i % 8) := by
  rw [Bool.eq_iff_iff, test, decide_eq_true_eq, ne_eq, ← UInt8.toNat_inj, UInt8.toNat_and, toNat_mask, and_two_pow]
  cases (m (i / 8)).toNat.testBit (i % 8) <;> simp

lemma test_setBit (m : Mem) (i j : ℕ) : test (setBit m i) j = (decide (j = i) || test m j) := by
  simp only [test_eq, setBit]
  by_cases h : i / 8 = j / 8
  · have hbit : i % 8 = j % 8 ↔ j = i := by omega
    rw [h, update_self, UInt8.toNat_or, testBit_or, toNat_mask, testBit_two_pow, Bool.or_comm,
      decide_eq_decide.2 hbit]
  · have hne : j ≠ i := fun he => h (he ▸ rfl)
    rw [update_of_ne (Ne.symm h)]
    simp [hne]

lemma test_clearBit (m : Mem) (i j : ℕ) : test (clearBit m i) j = (decide (j ≠ i) && test m j) := by
  simp only [test_eq, clearBit]
  by_cases h : i / 8 = j / 8
  · have hnot : ∀ k < 8, ∀ l < 8, (~~~ ((1 : UInt8) <<< UInt8.ofNat k)).toNat.testBit l = decide (l ≠ k) := by decide
    have hmask : (~~~ mask i).toNat.testBit (j % 8) = decide (j % 8 ≠ i % 8) :=
      hnot _ (mod_lt _ (by decide)) _ (mod_lt _ (by decide))
    have hbit : j % 8 ≠ i % 8 ↔ j ≠ i := by omega
    rw [h, update_self, UInt8.toNat_and, testBit_and, hmask, Bool.and_comm, decide_eq_decide.2 hbit]
  · have hne : j ≠ i := fun he => h (he ▸ rfl)
    rw [update_of_ne (Ne.symm h)]
    simp [hne]

/-! ### Intervals -/

lemma setBits_succ (m : Mem) (a n : ℕ) : setBits m a (n + 1) = setBit (setBits m a n) (a + n) := by
  simp [setBits, range_succ]

lemma clearBits_succ (m : Mem) (a n : ℕ) : clearBits m a (n + 1) = clearBit (clearBits m a n) (a + n) := by
  simp [clearBits, range_succ]

lemma test_setBits (m : Mem) (a n j : ℕ) : test (setBits m a n) j = (decide (a ≤ j ∧ j < a + n) || test m j) := by
  induction n with
  | zero => simp [setBits]
  | succ n ih =>
    rw [setBits_succ, test_setBit, ih, ← Bool.or_assoc, ← Bool.decide_or]
    congr 1
    exact decide_eq_decide.2 (by omega)

lemma test_clearBits (m : Mem) (a n j : ℕ) : test (clearBits m a n) j = (decide (¬ (a ≤ j ∧ j < a + n)) && test m j) := by
  induction n with
  | zero => simp [clearBits]
  | succ n ih =>
    rw [clearBits_succ, test_clearBit, ih, ← Bool.and_assoc, ← Bool.decide_and]
    congr 1
    exact decide_eq_decide.2 (by omega)

lemma count_interval (h : a + n ≤ N) : (List.range N).countP (fun j => decide (a ≤ j ∧ j < a + n)) = n := by
  obtain ⟨k, rfl⟩ := Nat.exists_eq_add_of_le h
  rw [range_add, range_add, countP_append, countP_append, countP_map, countP_map]
  have h1 : (List.range a).countP (fun j => decide (a ≤ j ∧ j < a + n)) = 0 :=
    countP_eq_zero.2 fun j hj => by
      have := mem_range.1 hj
      simp only [decide_eq_true_eq]
      omega
  have h2 : (List.range n).countP ((fun j => decide (a ≤ j ∧ j < a + n)) ∘ (a + ·)) = n := by
    refine (countP_eq_length.2 fun j hj => ?_).trans length_range
    have := mem_range.1 hj
    simp only [comp_apply, decide_eq_true_eq]
    omega
  have h3 : (List.range k).countP ((fun j => decide (a ≤ j ∧ j < a + n)) ∘ (a + n + ·)) = 0 :=
    countP_eq_zero.2 fun j _ => by
      simp only [comp_apply, decide_eq_true_eq]
      omega
  omega

lemma countP_or {p q : ℕ → Bool} (hpq : ∀ j < N, p j = true → q j = false) :
    (List.range N).countP (fun j => p j || q j) = (List.range N).countP p + (List.range N).countP q := by
  induction N with
  | zero => rfl
  | succ N ih =>
    have hN := hpq N (lt_succ_self N)
    rw [range_succ, countP_append, countP_append, countP_append, ih fun j hj => hpq j (by omega),
      countP_singleton, countP_singleton, countP_singleton]
    cases hp : p N with
    | true => simp [hN hp]; omega
    | false => cases q N <;> simp; omega

lemma count_le (m : Mem) (N : ℕ) : count m N ≤ N := countP_le_length.trans_eq length_range

lemma count_setBits (h : a + n ≤ N) (hclear : ∀ j, a ≤ j → j < a + n → test m j = false) :
    count (setBits m a n) N = count m N + n := by
  have htest : test (setBits m a n) = fun j => decide (a ≤ j ∧ j < a + n) || test m j := funext fun j => test_setBits m a n j
  unfold count
  rw [htest, countP_or fun j _ hj => ?_, count_interval h, Nat.add_comm]
  simp only [decide_eq_true_eq] at hj
  exact hclear j hj.1 hj.2

lemma count_clearBits (h : a + n ≤ N) (hset : ∀ j, a ≤ j → j < a + n → test m j = true) :
    count (clearBits m a n) N + n = count m N := by
  have hsplit : test m = fun j => decide (a ≤ j ∧ j < a + n) || test (clearBits m a n) j := by
    funext j
    rw [test_clearBits]
    by_cases hj : a ≤ j ∧ j < a + n
    · simp [hj, hset j hj.1 hj.2]
    · simp [hj]
  unfold count
  rw [hsplit, countP_or fun j _ hj => ?_, count_interval h, Nat.add_comm]
  simp only [decide_eq_true_eq] at hj
  rw [test_clearBits]
  simp [hj]

/-! ### First fit -/

/-- The first interval of `need` unused places among the next `k` from `i` on; `run` unused places from `start` on end at `i`. -/
def findRun (used : ℕ → Bool) (need : ℕ) : (k i run start : ℕ) → Option ℕ
  | 0, _, _, _ => none
  | k + 1, i, run, start =>
    if used i then findRun used need k (i + 1) 0 start
    else
      let start := if run = 0 then i else start
      if run + 1 = need then some start else findRun used need k (i + 1) (run + 1) start

section FindRun

variable {used : ℕ → Bool} {need k run start : ℕ}

lemma findRun_some (hrun : run ≤ i) (hstart : run ≠ 0 → start + run = i) (hfree : ∀ j, i - run ≤ j → j < i → used j = false)
    (h : findRun used need k i run start = some a) :
    a + need ≤ i + k ∧ ∀ j, a ≤ j → j < a + need → used j = false := by
  induction k generalizing i run start with
  | zero => cases h
  | succ k ih =>
    unfold findRun at h
    by_cases hu : used i = true
    · rw [if_pos hu] at h
      obtain ⟨h1, h2⟩ := ih (Nat.zero_le _) (fun h => absurd rfl h) (fun j h1 h2 => by omega) h
      exact ⟨by omega, h2⟩
    have hfree' : ∀ j, i - run ≤ j → j < i + 1 → used j = false := by
      intro j h1 h2
      rcases Nat.lt_or_ge j i with hj | hj
      · exact hfree j h1 hj
      · obtain rfl : j = i := by omega
        simpa using hu
    generalize hs : (if run = 0 then i else start) = start' at h
    have hstart' : start' + (run + 1) = i + 1 := by
      rw [← hs]
      split_ifs with h0
      · omega
      · omega
    split_ifs at h with hneed
    · cases h
      exact ⟨by omega, fun j h1 h2 => hfree' j (by omega) (by omega)⟩
    · obtain ⟨h1, h2⟩ := ih (by omega) (fun _ => hstart') (fun j h1 h2 => hfree' j (by omega) h2) h
      exact ⟨by omega, h2⟩

lemma findRun_none (hrun : run ≤ i) (hlt : run < need) (hmax : run = i ∨ used (i - run - 1) = true)
    (hseen : ∀ b, b + need ≤ i → ∃ j, b ≤ j ∧ j < b + need ∧ used j = true)
    (h : findRun used need k i run start = none) :
    ∀ b, b + need ≤ i + k → ∃ j, b ≤ j ∧ j < b + need ∧ used j = true := by
  induction k generalizing i run start with
  | zero => exact hseen
  | succ k ih =>
    unfold findRun at h
    intro b hb
    by_cases hu : used i = true
    · rw [if_pos hu] at h
      refine ih (Nat.zero_le _) (by omega) (.inr (by simpa using hu)) (fun b hb => ?_) h b (by omega)
      rcases Nat.lt_or_ge i (b + need) with hi | hi
      · exact ⟨i, by omega, hi, hu⟩
      · exact hseen b hi
    generalize (if run = 0 then i else start) = start' at h
    split_ifs at h with hneed
    refine ih (by omega) (by omega) ?_ (fun b hb => ?_) h b (by omega)
    · rcases hmax with hm | hm
      · exact .inl (by omega)
      · have : i + 1 - (run + 1) - 1 = i - run - 1 := by omega
        exact .inr (this ▸ hm)
    · rcases Nat.lt_or_ge i (b + need) with hi | hi
      · -- the last place before the unused ones is in the interval
        rcases hmax with hm | hm
        · omega
        · exact ⟨i - run - 1, by omega, by omega, hm⟩
      · exact hseen b hi

end FindRun

/-! ### Disjoint intervals -/

section Tiled

variable {α : Type} {cs : List α} {start len : α → ℕ} {c : α}

/-- The bits below `N` are the union of disjoint intervals, one for each member of the list. -/
structure Tiled (m : Mem) (N : ℕ) (cs : List α) (start len : α → ℕ) : Prop where
  pos : ∀ c ∈ cs, 0 < len c
  inside : ∀ c ∈ cs, start c + len c ≤ N
  apart : cs.Pairwise fun c d => start c + len c ≤ start d ∨ start d + len d ≤ start c
  bits : ∀ j < N, test m j = true ↔ ∃ c ∈ cs, start c ≤ j ∧ j < start c + len c

namespace Tiled

lemma nil (h : ∀ j < N, test m j = false) : Tiled m N [] start len :=
  ⟨by simp, by simp, .nil, fun j hj => by simp [h j hj]⟩

section

variable (h : Tiled m N cs start len)

include h

lemma apart_of_mem {d : α} (hc : c ∈ cs) (hd : d ∈ cs) (hne : d ≠ c) :
    start c + len c ≤ start d ∨ start d + len d ≤ start c :=
  have : Std.Symm fun c d => start c + len c ≤ start d ∨ start d + len d ≤ start c := ⟨fun _ _ => Or.symm⟩
  h.apart.forall hc hd hne.symm

lemma test_of_mem (hc : c ∈ cs) (h1 : start c ≤ j) (h2 : j < start c + len c) : test m j = true :=
  (h.bits j (lt_of_lt_of_le h2 (h.inside c hc))).2 ⟨c, hc, h1, h2⟩

lemma nodup : cs.Nodup := by
  refine h.apart.imp_of_mem fun hc _ happart heq => ?_
  subst heq
  have := h.pos _ hc
  omega

lemma take (hpos : 0 < len c) (hle : start c + len c ≤ N)
    (hclear : ∀ j, start c ≤ j → j < start c + len c → test m j = false) :
    Tiled (setBits m (start c) (len c)) N (c :: cs) start len := by
  refine ⟨forall_mem_cons.2 ⟨hpos, h.pos⟩, forall_mem_cons.2 ⟨hle, h.inside⟩, pairwise_cons.2 ⟨?_, h.apart⟩, ?_⟩
  · -- an interval that meets the new one has a set bit in it
    intro d hd
    by_contra hmeet
    have hd0 := h.pos d hd
    have hset := h.test_of_mem (j := max (start c) (start d)) hd (by omega) (by omega)
    rw [hclear _ (by omega) (by omega)] at hset
    cases hset
  · intro j hj
    rw [test_setBits, Bool.or_eq_true, h.bits j hj]
    simp

end

lemma give [DecidableEq α] (h : Tiled m N cs start len) (hc : c ∈ cs) :
    Tiled (clearBits m (start c) (len c)) N (cs.filter (· ≠ c)) start len := by
  refine ⟨fun d hd => h.pos d (mem_of_mem_filter hd), fun d hd => h.inside d (mem_of_mem_filter hd),
    h.apart.filter _, fun j hj => ?_⟩
  rw [test_clearBits, Bool.and_eq_true, decide_eq_true_eq, h.bits j hj]
  constructor
  · rintro ⟨hout, d, hd, hj⟩
    refine ⟨d, mem_filter.2 ⟨hd, ?_⟩, hj⟩
    rw [decide_eq_true_eq]
    rintro rfl
    exact hout hj
  · rintro ⟨d, hd, hj⟩
    obtain ⟨hd, hne⟩ := mem_filter.1 hd
    have happart := h.apart_of_mem hc hd (of_decide_eq_true hne)
    exact ⟨by omega, d, hd, hj⟩

end Tiled

end Tiled

end LwftpCe.Lib.Bitmap
