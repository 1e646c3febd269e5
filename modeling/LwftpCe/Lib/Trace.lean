import Mathlib.Data.List.Infix
import Mathlib.Logic.Relation

/-!
# Runs and traces

* `run step s es`: the state after the events `es`, for a partial step function (`none`: the event cannot happen);
  `run_inv` is the invariant rule, `run_sim` the one for two runs side by side, `run_append` cuts a run in two.
* A *trace* is a list of observations, the latest first.  `Always P t` says that every observation `o` of `t` stands
  with the part `t'` of the trace that came before it in the relation `P o t'`.
-/

namespace LwftpCe.Lib

open List

section Run

variable {σ ε : Type*} {step : σ → ε → Option σ} {s s' : σ} {es : List ε} {C : σ → ε → Prop} {e : ε}

def run (step : σ → ε → Option σ) : σ → List ε → Option σ
  | s, [] => some s
  | s, e :: es => (step s e).bind fun s' => run step s' es

@[simp] lemma run_nil (s : σ) : run step s [] = some s := rfl

lemma run_cons_some : run step s (e :: es) = some s' ↔ ∃ m, step s e = some m ∧ run step m es = some s' := by
  simp [run, Option.bind_eq_some_iff]

lemma run_append {fs : List ε} : run step s (es ++ fs) = some s' ↔ ∃ m, run step s es = some m ∧ run step m fs = some s' := by
  induction es generalizing s with
  | nil => simp
  | cons e es ih =>
    simp only [cons_append, run_cons_some, ih]
    constructor
    · rintro ⟨m, hm, m', hm', h⟩
      exact ⟨m', ⟨m, hm, hm'⟩, h⟩
    · rintro ⟨m', ⟨m, hm, hm'⟩, h⟩
      exact ⟨m, hm, m', hm', h⟩

lemma run_inv (I : σ → Prop) (hstep : ∀ s e s', I s → step s e = some s' → I s') :
    ∀ {es : List ε} {s s' : σ}, I s → run step s es = some s' → I s' := by
  intro es
  induction es with
  | nil =>
    intro s s' hs h
    cases h
    exact hs
  | cons e es ih =>
    intro s s' hs h
    obtain ⟨m, hm, h⟩ := run_cons_some.1 h
    exact ih (hstep s e m hs hm) h

def guarded (ok : σ → ε → Bool) (step : σ → ε → Option σ) (s : σ) (e : ε) : Option σ := if ok s e then step s e else none

def Along (C : σ → ε → Prop) (step : σ → ε → Option σ) : σ → List ε → Prop
  | _, [] => True
  | s, e :: es => C s e ∧ ∀ s', step s e = some s' → Along C step s' es

lemma along_of_forall (h : ∀ s, ∀ e ∈ es, C s e) (s : σ) : Along C step s es := by
  induction es generalizing s with
  | nil => trivial
  | cons e es ih =>
    exact ⟨h s e mem_cons_self, fun s' _ => ih (fun s e he => h s e (mem_cons_of_mem _ he)) s'⟩

lemma run_inv_along (I : σ → Prop) (hstep : ∀ s e s', I s → C s e → step s e = some s' → I s') :
    ∀ {es : List ε} {s s' : σ}, I s → Along C step s es → run step s es = some s' → I s' := by
  intro es
  induction es with
  | nil =>
    intro s s' hs _ h
    cases h
    exact hs
  | cons e es ih =>
    intro s s' hs hall h
    obtain ⟨m, hm, h⟩ := run_cons_some.1 h
    exact ih (hstep s e m hs hall.1 hm) (hall.2 m hm) h

lemma run_sim {τ ε' : Type*} {step' : τ → ε' → Option τ} {Q : ε → ε' → Prop} (R : σ → τ → Prop)
    (hstep : ∀ s t e e' s', R s t → Q e e' → C s e → step s e = some s' → ∃ t', step' t e' = some t' ∧ R s' t') {es' : List ε'} (hes : List.Forall₂ Q es es') :
    ∀ {s s' : σ} {t : τ}, R s t → Along C step s es → run step s es = some s' → ∃ t', run step' t es' = some t' ∧ R s' t' := by
  induction hes with
  | nil =>
    intro s s' t hR _ h
    cases h
    exact ⟨t, rfl, hR⟩
  | cons he _ ih =>
    intro s s' t hR hall h
    obtain ⟨m, hm, h⟩ := run_cons_some.1 h
    obtain ⟨n, hn, hR'⟩ := hstep _ _ _ _ _ hR he hall.1 hm
    obtain ⟨t', ht', hR''⟩ := ih hR' (hall.2 m hm) h
    exact ⟨t', run_cons_some.2 ⟨n, hn, ht'⟩, hR''⟩

lemma guarded_some {ok : σ → ε → Bool} : guarded ok step s e = some s' ↔ ok s e ∧ step s e = some s' :=
  Option.ite_none_right_eq_some

end Run

section Trace

variable {α : Type*} {P : α → List α → Prop} {o : α} {t : List α}

def Always (P : α → List α → Prop) : List α → Prop
  | [] => True
  | o :: t => P o t ∧ Always P t

@[simp] lemma always_nil : Always P [] := trivial

@[simp] lemma always_cons : Always P (o :: t) ↔ P o t ∧ Always P t := Iff.rfl

instance decidableAlways [∀ o t, Decidable (P o t)] : ∀ t : List α, Decidable (Always P t)
  | [] => .isTrue trivial
  | o :: t =>
    have := decidableAlways t
    inferInstanceAs (Decidable (P o t ∧ Always P t))

lemma Always.of_mem : ∀ {t : List α}, Always P t → o ∈ t → ∃ t', t' ⊆ t ∧ P o t'
  | a :: t, h, ho => by
    rcases mem_cons.1 ho with rfl | ho
    · exact ⟨t, subset_cons_self .., h.1⟩
    · obtain ⟨t', ht', hP⟩ := Always.of_mem h.2 ho
      exact ⟨t', subset_cons_of_subset _ ht', hP⟩

lemma first_mark_unique {mark : α → Bool} {l u v : List α} {a b : α} (ha : a :: (u ++ t) <:+ l)
    (hb : b :: (v ++ t) <:+ l) (hma : mark a = true) (hmb : mark b = true) (hu : ∀ x ∈ u, mark x = false)
    (hv : ∀ x ∈ v, mark x = false) : u = v := by
  have key : ∀ {a b : α} {u v : List α}, mark a = true → (∀ x ∈ v, mark x = false) →
      a :: (u ++ t) <:+ b :: (v ++ t) → u = v := by
    rintro a b u v hma hv ⟨w, hw⟩
    cases w with
    | nil => exact append_cancel_right (List.cons.inj hw).2
    | cons b' w =>
      -- then `a` stands before the end `t` of the other one
      have hw := (List.cons.inj hw).2
      have hw' : (w ++ a :: u) ++ t = v ++ t := by simpa using hw
      have h : w ++ a :: u = v := append_cancel_right hw'
      exact absurd (hv a (by simp [← h])) (by simp [hma])
  rcases suffix_or_suffix_of_suffix ha hb with h | h
  · exact key hma hv h
  · exact (key hmb hu h).symm

section Monitor

/-! A monitor is a fold over the trace.  Where it does nothing at the observations outside `f`, it can be run on the trace
without them. -/

variable {γ : Type*} {f : α → Bool} {u : α → γ → γ}

lemma foldr_filter_eq (hu : ∀ o g, f o = false → u o g = g) (g : γ) (t : List α) : (t.filter f).foldr u g = t.foldr u g := by
  rw [foldr_filter]
  congr 1
  funext o g'
  split
  · rfl
  · next ho => exact (hu o g' (by simpa using ho)).symm

lemma always_filter (hu : ∀ o g, f o = false → u o g = g) {R : α → γ → Prop} (hR : ∀ o g, f o = false → R o g) (g : γ) (t : List α) :
    Always (fun o t => R o (t.foldr u g)) (t.filter f) ↔ Always (fun o t => R o (t.foldr u g)) t := by
  induction t with
  | nil => rfl
  | cons o t ih =>
    cases ho : f o with
    | true => simp [ho, ih, foldr_filter_eq hu]
    | false => simp [ho, ih, hR o _ ho]

end Monitor

end Trace

section Moves

variable {σ : Type*} {R : σ → σ → Prop}

lemma reflTransGen_inv (I : σ → Prop) (hR : ∀ a b, I a → R a b → I b) {a b : σ}
    (h : Relation.ReflTransGen R a b) (ha : I a) : I b := by
  induction h with
  | refl => exact ha
  | tail _ hbc ih => exact hR _ _ ih hbc

end Moves

end LwftpCe.Lib
