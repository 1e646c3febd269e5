import Mathlib.Data.List.Forall2

/-!
# Lines of a stream that arrives in pieces

A stream is cut at a separator into lines, and what is behind the last separator is no line yet (`linesOf`).  It arrives in
pieces, and a reader collects the line it is in: at most `cap` elements of it.  Where a line is full and goes on, the reader
drops the rest of the piece (`feed`, `assemble`).  It passes on one line for each line of the stream exactly if the separator
behind every longer line is the first element of its piece (`InTime`).
-/

namespace LwftpCe.Lib

open List

variable {α : Type*} [DecidableEq α] {sep : α} {cap : ℕ} {c : α} {d t b : List α} {ds : List (List α)}

def lineSoFar (sep : α) (t d : List α) : List α := d.foldl (fun t c => if c = sep then [] else t ++ [c]) t

def linesOf (sep : α) : List α → List α → List (List α)
  | _, [] => []
  | t, c :: d => if c = sep then t :: linesOf sep [] d else linesOf sep (t ++ [c]) d

/-- A piece comes in, and `b` is what is held of the line: the lines passed on, and what is held afterwards. -/
def feed (sep : α) (cap : ℕ) : List α → List α → List (List α) × List α
  | [], b => ([], b)
  | c :: d, b =>
    if c = sep then (b :: (feed sep cap d []).1, (feed sep cap d []).2)
    else if b.length < cap then feed sep cap d (b ++ [c])
    else ([], b)

def assemble (sep : α) (cap : ℕ) : List (List α) → List α → List (List α) × List α
  | [], b => ([], b)
  | d :: ds, b =>
    let r := assemble sep cap ds (feed sep cap d b).2
    ((feed sep cap d b).1 ++ r.1, r.2)

def OneEach (cap : ℕ) : List (List α) → List (List α) → Prop := List.Forall₂ fun h l => l.length ≤ cap → h = l

/-- A separator inside a piece, with something before it there, ends a line of at most `cap` elements; `t` is the line the
stream was in before. -/
def InTime (sep : α) (cap : ℕ) (t : List α) (ds : List (List α)) : Prop :=
  ∀ ps d₁ d₂ rest, ds = ps ++ (d₁ ++ sep :: d₂) :: rest → d₁ ≠ [] →
    (lineSoFar sep t (ps.flatten ++ d₁)).length ≤ cap

/-! ### The lines of a stream -/

@[simp] lemma lineSoFar_nil (t : List α) : lineSoFar sep t [] = t := rfl

lemma lineSoFar_append (t d e : List α) : lineSoFar sep t (d ++ e) = lineSoFar sep (lineSoFar sep t d) e := by
  unfold lineSoFar
  rw [foldl_append]

@[simp] lemma lineSoFar_sep (t d : List α) : lineSoFar sep t (sep :: d) = lineSoFar sep [] d := by
  simp [lineSoFar]

lemma lineSoFar_cons (hc : c ≠ sep) (t d : List α) : lineSoFar sep t (c :: d) = lineSoFar sep (t ++ [c]) d := by
  simp [lineSoFar, hc]

lemma lineSoFar_of_notMem (h : sep ∉ d) (t : List α) : lineSoFar sep t d = t ++ d := by
  induction d generalizing t with
  | nil => simp
  | cons c d ih =>
    have hc : c ≠ sep := fun hc => h (by simp [hc])
    have hd : sep ∉ d := fun hd => h (mem_cons_of_mem c hd)
    rw [lineSoFar_cons hc, ih hd]
    simp

lemma linesOf_append (t d e : List α) : linesOf sep t (d ++ e) = linesOf sep t d ++ linesOf sep (lineSoFar sep t d) e := by
  induction d generalizing t with
  | nil => rfl
  | cons c d ih =>
    by_cases hc : c = sep
    · subst hc
      simp [linesOf, ih]
    · simp [linesOf, hc, ih, lineSoFar_cons hc]

lemma linesOf_eq_splitOn [BEq α] [LawfulBEq α] (t d : List α) (ht : sep ∉ t) : linesOf sep t d = ((t ++ d).splitOn sep).dropLast := by
  induction d generalizing t with
  | nil => simp [linesOf, splitOn_eq_singleton ht]
  | cons c d ih =>
    by_cases hc : c = sep
    · subst hc
      rw [splitOn_append_cons_self, splitOn_eq_singleton ht, singleton_append,
        dropLast_cons_of_ne_nil (splitOn_ne_nil c d)]
      simp [linesOf, ih [] (by simp)]
    · simp only [linesOf, hc, if_false]
      rw [ih (t ++ [c]) (by simp [ht, Ne.symm hc])]
      simp

lemma length_linesOf (t d : List α) : (linesOf sep t d).length = d.count sep := by
  induction d generalizing t with
  | nil => rfl
  | cons c d ih =>
    by_cases hc : c = sep
    · subst hc
      simp [linesOf, ih]
    · simp [linesOf, hc, ih]

/-! ### One piece -/

def Short (sep : α) (cap : ℕ) (t d : List α) : Prop :=
  ∀ d₁ d₂, d = d₁ ++ sep :: d₂ → (lineSoFar sep t d₁).length ≤ cap

lemma short_sep : Short sep cap t (sep :: d) ↔ t.length ≤ cap ∧ Short sep cap [] d := by
  constructor
  · intro h
    refine ⟨h [] d rfl, fun d1 d2 hd => ?_⟩
    have := h (sep :: d1) d2 (by simp [hd])
    simpa using this
  · rintro ⟨ht, h⟩ d1 d2 hd
    cases d1 with
    | nil => exact ht
    | cons x d1 =>
      obtain ⟨rfl, rfl⟩ := List.cons.inj hd
      simpa using h d1 d2 rfl

lemma short_cons (hc : c ≠ sep) : Short sep cap t (c :: d) ↔ Short sep cap (t ++ [c]) d := by
  constructor
  · intro h d1 d2 hd
    have := h (c :: d1) d2 (by simp [hd])
    rwa [lineSoFar_cons hc] at this
  · intro h d1 d2 hd
    cases d1 with
    | nil => exact absurd (List.cons.inj hd).1 hc
    | cons x d1 =>
      obtain ⟨rfl, rfl⟩ := List.cons.inj hd
      rw [lineSoFar_cons hc]
      exact h d1 d2 rfl

lemma short_of_long (ht : cap < t.length) : Short sep cap t d ↔ sep ∉ d := by
  constructor
  · intro h hd
    obtain ⟨d1, d2, rfl, hno⟩ := eq_append_cons_of_mem hd
    have := h d1 d2 rfl
    rw [lineSoFar_of_notMem hno, length_append] at this
    omega
  · intro hd d1 d2 h
    exact absurd (by simp [h]) hd

lemma feed_sep (d b : List α) : feed sep cap (sep :: d) b = (b :: (feed sep cap d []).1, (feed sep cap d []).2) := by
  simp [feed]

lemma feed_room (hc : c ≠ sep) (hb : b.length < cap) (d : List α) : feed sep cap (c :: d) b = feed sep cap d (b ++ [c]) := by
  simp [feed, hc, hb]

lemma feed_full (hc : c ≠ sep) (hb : cap ≤ b.length) (d : List α) : feed sep cap (c :: d) b = ([], b) := by
  simp [feed, hc, Nat.not_lt.2 hb]

variable (sep cap) in
lemma length_feed_le (d b : List α) : (feed sep cap d b).1.length ≤ d.count sep := by
  induction d generalizing b with
  | nil => exact Nat.le_refl _
  | cons c d ih =>
    by_cases hc : c = sep
    · subst hc
      have := ih []
      rw [feed_sep]
      simpa using this
    · rw [count_cons_of_ne hc]
      rcases Nat.lt_or_ge b.length cap with hb | hb
      · rw [feed_room hc hb]
        exact ih _
      · rw [feed_full hc hb]
        exact Nat.zero_le _

variable (sep) in
lemma feed_cases (hb : b.length ≤ cap) (d : List α) :
    Short sep cap b d ∧ feed sep cap d b = (linesOf sep b d, (lineSoFar sep b d).take cap) ∨
    ¬ Short sep cap b d ∧ (feed sep cap d b).1.length < d.count sep := by
  induction d generalizing b with
  | nil =>
    left
    refine ⟨fun d₁ d₂ h => by simp at h, ?_⟩
    simp [feed, linesOf, take_of_length_le hb]
  | cons c d ih =>
    by_cases hc : c = sep
    · subst hc
      rw [short_sep, feed_sep, lineSoFar_sep, count_cons_self]
      rcases ih (b := []) (Nat.zero_le _) with ⟨hs, he⟩ | ⟨hs, he⟩
      · exact .inl ⟨⟨hb, hs⟩, by simp [he, linesOf]⟩
      · exact .inr ⟨fun h => hs h.2, by simpa using he⟩
    · rw [short_cons hc, lineSoFar_cons hc, count_cons_of_ne hc]
      rcases Nat.lt_or_ge b.length cap with hlt | hge
      · have hb' : (b ++ [c]).length ≤ cap := by simp; omega
        rw [feed_room hc hlt]
        simpa [linesOf, hc] using ih hb'
      · -- the line is full: what is left of the piece is dropped
        have hlong : cap < (b ++ [c]).length := by simp; omega
        rw [feed_full hc hge, short_of_long hlong]
        by_cases hd : sep ∈ d
        · exact .inr ⟨fun h => h hd, count_pos_iff.2 hd⟩
        · left
          refine ⟨hd, ?_⟩
          have hlines : linesOf sep b (c :: d) = [] := by
            rw [← length_eq_zero_iff, length_linesOf, count_cons_of_ne hc]
            exact count_eq_zero.2 hd
          rw [hlines, lineSoFar_of_notMem hd, append_assoc, take_append_of_le_length hge,
            take_of_length_le hb]

def PieceOk (sep : α) (cap : ℕ) (t d : List α) : Prop :=
  ∀ d₁ d₂, d = d₁ ++ sep :: d₂ → d₁ ≠ [] → (lineSoFar sep t d₁).length ≤ cap

lemma pieceOk_sep : PieceOk sep cap t (sep :: d) ↔ Short sep cap [] d := by
  constructor
  · intro h d1 d2 hd
    have := h (sep :: d1) d2 (by simp [hd]) (by simp)
    simpa using this
  · intro h d1 d2 hd hne
    cases d1 with
    | nil => exact absurd rfl hne
    | cons x d1 =>
      obtain ⟨rfl, rfl⟩ := List.cons.inj hd
      simpa using h d1 d2 rfl

lemma pieceOk_cons (hc : c ≠ sep) : PieceOk sep cap t (c :: d) ↔ Short sep cap (t ++ [c]) d := by
  rw [← short_cons hc]
  constructor
  · intro h d1 d2 hd
    refine h d1 d2 hd ?_
    rintro rfl
    exact hc (List.cons.inj hd).1
  · intro h d1 d2 hd _
    exact h d1 d2 hd

variable (sep cap) in
lemma piece_cases (t d : List α) : PieceOk sep cap t d ∧ OneEach cap (feed sep cap d (t.take cap)).1 (linesOf sep t d) ∧
      (feed sep cap d (t.take cap)).2 = (lineSoFar sep t d).take cap ∨
    ¬ PieceOk sep cap t d ∧ (feed sep cap d (t.take cap)).1.length < d.count sep := by
  have same : ∀ ls : List (List α), OneEach cap ls ls := fun ls => forall₂_same.2 fun _ _ _ => rfl
  cases d with
  | nil =>
    left
    refine ⟨fun d₁ d₂ h => by simp at h, ?_, rfl⟩
    exact .nil
  | cons c d =>
    by_cases hc : c = sep
    · subst hc
      rw [pieceOk_sep, feed_sep, lineSoFar_sep, count_cons_self]
      rcases feed_cases c (b := []) (Nat.zero_le cap) d with ⟨hs, he⟩ | ⟨hs, he⟩
      · left
        refine ⟨hs, ?_, by rw [he]⟩
        rw [he]
        simp only [linesOf, if_true]
        exact .cons (fun ht => take_of_length_le ht) (same _)
      · exact .inr ⟨hs, by simpa using he⟩
    · rw [pieceOk_cons hc, lineSoFar_cons hc, count_cons_of_ne hc]
      rcases Nat.lt_or_ge t.length cap with hlt | hge
      · have htake : t.take cap = t := take_of_length_le (by omega)
        have hb : (t ++ [c]).length ≤ cap := by simp; omega
        rw [htake, feed_room hc hlt]
        rcases feed_cases sep hb d with ⟨hs, he⟩ | h
        · left
          refine ⟨hs, ?_, by rw [he]⟩
          rw [he]
          simpa [linesOf, hc] using same _
        · exact .inr h
      · have hlong : cap < (t ++ [c]).length := by simp; omega
        have hfull : cap ≤ (t.take cap).length := by simp; omega
        rw [feed_full hc hfull, short_of_long hlong]
        by_cases hd : sep ∈ d
        · exact .inr ⟨fun h => h hd, count_pos_iff.2 hd⟩
        · left
          have hlines : linesOf sep t (c :: d) = [] := by
            rw [← length_eq_zero_iff, length_linesOf, count_cons_of_ne hc]
            exact count_eq_zero.2 hd
          refine ⟨hd, ?_, ?_⟩
          · rw [hlines]
            exact .nil
          · rw [lineSoFar_of_notMem hd, append_assoc, take_append_of_le_length hge]

/-! ### A stream in pieces -/

lemma inTime_nil (t : List α) : InTime sep cap t [] := by
  intro ps d1 d2 rest h
  simp at h

lemma inTime_cons : InTime sep cap t (d :: ds) ↔ PieceOk sep cap t d ∧ InTime sep cap (lineSoFar sep t d) ds := by
  constructor
  · intro h
    constructor
    · intro d1 d2 hd hne
      simpa using h [] d1 d2 ds (by simp [hd]) hne
    · intro ps d1 d2 rest hds hne
      have := h (d :: ps) d1 d2 rest (by simp [hds]) hne
      rwa [flatten_cons, append_assoc, lineSoFar_append] at this
  · rintro ⟨hp, h⟩ ps d1 d2 rest hds hne
    cases ps with
    | nil =>
      obtain ⟨rfl, -⟩ := List.cons.inj hds
      simpa using hp d1 d2 rfl hne
    | cons p ps =>
      obtain ⟨rfl, rfl⟩ := List.cons.inj hds
      rw [flatten_cons, append_assoc, lineSoFar_append]
      exact h ps d1 d2 rest rfl hne

variable (sep cap) in
lemma length_assemble_le (ds : List (List α)) (b : List α) : (assemble sep cap ds b).1.length ≤ ds.flatten.count sep := by
  induction ds generalizing b with
  | nil => exact Nat.zero_le _
  | cons d ds ih =>
    simp only [assemble, length_append, flatten_cons, count_append]
    exact Nat.add_le_add (length_feed_le sep cap d b) (ih _)

variable (sep cap) in
lemma assemble_cases (t : List α) (ds : List (List α)) :
    InTime sep cap t ds ∧ OneEach cap (assemble sep cap ds (t.take cap)).1 (linesOf sep t ds.flatten) ∨
    ¬ InTime sep cap t ds ∧ (assemble sep cap ds (t.take cap)).1.length < ds.flatten.count sep := by
  induction ds generalizing t with
  | nil => exact .inl ⟨inTime_nil t, .nil⟩
  | cons d ds ih =>
    rw [inTime_cons]
    simp only [assemble, flatten_cons, length_append, count_append, linesOf_append]
    have hle := length_feed_le sep cap d (t.take cap)
    rcases piece_cases sep cap t d with ⟨hp, hone, hheld⟩ | ⟨hp, hlost⟩
    · rw [hheld]
      rcases ih (lineSoFar sep t d) with ⟨hi, hrest⟩ | ⟨hi, hlost⟩
      · exact .inl ⟨⟨hp, hi⟩, rel_append hone hrest⟩
      · exact .inr ⟨fun h => hi h.2, by omega⟩
    · have hrest := length_assemble_le sep cap ds (feed sep cap d (t.take cap)).2
      exact .inr ⟨fun h => hp h.1, by omega⟩

lemma assemble_oneEach (h : InTime sep cap [] ds) : OneEach cap (assemble sep cap ds []).1 (linesOf sep [] ds.flatten) := by
  rcases assemble_cases sep cap [] ds with ⟨-, hone⟩ | ⟨hi, -⟩
  · rwa [take_nil] at hone
  · exact absurd h hi

lemma inTime_of_length (h : (assemble sep cap ds []).1.length = (linesOf sep [] ds.flatten).length) : InTime sep cap [] ds := by
  rcases assemble_cases sep cap [] ds with ⟨hi, -⟩ | ⟨-, hlost⟩
  · exact hi
  · rw [take_nil] at hlost
    rw [length_linesOf] at h
    omega

end LwftpCe.Lib
