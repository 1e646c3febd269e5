import LwftpCe.App.Layout

/-!
# The variables behind the local list

`util_DeleteFile` and `util_UploadFile` hand the name and the type of a local entry back to the operating system.
`util_GetLocalFiles` has added 64 to a first byte below `'A'`, since the names of hidden programs are stored that way, and
nothing takes it back.
-/

namespace LwftpCe.App

open Lib

variable {V : Type} {v : Name8 × UInt8} {f : FileT}

def osKind (type : UInt8) : UInt8 := if type = osTypeProtPrgm then osTypePrgm else type

def Denotes (name : Bytes) (type : UInt8) (v : Name8 × UInt8) : Prop := cstr v.1.1 = name ∧ osKind v.2 = osKind type

def Distinct (vat : List (Name8 × UInt8)) : Prop :=
  ∀ v ∈ vat, ∀ w ∈ vat, cstr v.1.1 = cstr w.1.1 → osKind v.2 = osKind w.2 → v = w

def listed (vat : List (Name8 × UInt8)) : List (Name8 × UInt8) := vat.filter fun v => (localFile v).isSome

/-- Every local entry denotes the variable it was made from and no other one, and no two variables share an entry's name and
type. -/
structure EntriesDenote (F : Fileioc V) (a : AppT V) : Prop where
  exact : ∀ i v, (listed (F.detectAny a.vars))[i]? = some v → ∀ w ∈ F.detectAny a.vars,
    (Denotes ((utilGetLocalFiles F a).localFiles i).str (osType ((utilGetLocalFiles F a).localFiles i)) w ↔ w = v)
  unshared : ∀ i j v w, (listed (F.detectAny a.vars))[i]? = some v → (listed (F.detectAny a.vars))[j]? = some w →
    ((utilGetLocalFiles F a).localFiles i).str = ((utilGetLocalFiles F a).localFiles j).str →
    osType ((utilGetLocalFiles F a).localFiles i) = osType ((utilGetLocalFiles F a).localFiles j) → v = w

lemma getElem?_filterMap {α β : Type} (f : α → Option β) (l : List α) (i : ℕ) :
    (l.filterMap f)[i]? = (l.filter fun x => (f x).isSome)[i]?.bind f := by
  induction l generalizing i with
  | nil => rfl
  | cons x l ih =>
    cases hx : f x with
    | none => rw [List.filterMap_cons_none hx, List.filter_cons_of_neg (by simp [hx]), ih]
    | some y =>
      rw [List.filterMap_cons_some hx, List.filter_cons_of_pos (by simp [hx])]
      cases i with
      | zero => exact hx.symm
      | succ i => exact ih i

lemma localFiles_of_listed {F : Fileioc V} {a : AppT V} {i : ℕ}
    (h : (listed (F.detectAny a.vars))[i]? = some v) : localFile v = some ((utilGetLocalFiles F a).localFiles i) := by
  have hsome : (localFile v).isSome = true := (List.mem_filter.1 (List.mem_of_getElem? h)).2
  obtain ⟨f, hf⟩ := Option.isSome_iff_exists.1 hsome
  have hfile : ((F.detectAny a.vars).filterMap localFile)[i]? = some f := by
    rw [getElem?_filterMap]
    exact (congrArg (Option.bind · localFile) h).trans hf
  unfold utilGetLocalFiles
  dsimp only
  rw [hfile, Option.getD_some, hf]

lemma type_localFile (h : localFile v = some f) :
    (v.2 = osTypeAppvar ∧ f.type = .appvar) ∨ ((v.2 = osTypeProtPrgm ∨ v.2 = osTypePrgm) ∧ f.type = .prog) := by
  unfold localFile at h
  dsimp only at h
  generalize (if v.1.1.headD 0 < 65 ∨ 128 ≤ v.1.1.headD 0 then (⟨v.1.1.set 0 (v.1.1.headD 0 + 64), _⟩ : Name8) else v.1) = name at h
  split_ifs at h with hskip happvar hprgm
  · cases h
    exact .inl ⟨happvar, rfl⟩
  · cases h
    exact .inr ⟨hprgm, rfl⟩

lemma osKind_localFile (h : localFile v = some f) : osKind v.2 = osKind (osType f) := by
  unfold osType
  rcases type_localFile h with ⟨hv, hf⟩ | ⟨hv | hv, hf⟩ <;> rw [hv, hf] <;> rfl

lemma cstr_shifted (c : UInt8) (rest : Bytes) : cstr (c :: rest) ≠ cstr ((c + 64) :: rest) := by
  have hne : c ≠ c + 64 := by
    intro h
    have h := congrArg UInt8.toNat h
    rw [UInt8.toNat_add, show (64 : UInt8).toNat = 64 from rfl] at h
    omega
  unfold cstr
  by_cases h0 : c = 0
  · subst h0
    simp
  · rw [List.takeWhile_cons_of_pos (by simpa using h0)]
    by_cases h1 : c + 64 = 0
    · rw [List.takeWhile_cons_of_neg (by simpa using h1)]
      exact List.cons_ne_nil _ _
    · rw [List.takeWhile_cons_of_pos (by simpa using h1)]
      exact fun h => hne (List.cons.inj h).1

lemma str_localFile_iff (h : localFile v = some f) : cstr v.1.1 = f.str ↔ 65 ≤ v.1.1.headD 0 ∧ v.1.1.headD 0 < 128 := by
  have hname := localFile_name h
  unfold FileT.str
  rw [hname]
  split_ifs with hshift
  · obtain ⟨⟨name, hlen⟩, t⟩ := v
    obtain ⟨c, rest, rfl⟩ := List.exists_cons_of_length_eq_add_one hlen
    refine ⟨fun heq => absurd heq (cstr_shifted c rest), fun hc => ?_⟩
    rcases hshift with hlt | hge
    · exact absurd hlt (UInt8.not_lt.2 hc.1)
    · exact absurd hc.2 (UInt8.not_lt.2 hge)
  · obtain ⟨hlt, hge⟩ := not_or.1 hshift
    exact ⟨fun _ => ⟨UInt8.not_lt.1 hlt, UInt8.not_le.1 hge⟩, fun _ => rfl⟩

/-- **When the local entries denote their variables.** -/
theorem entry_denotes_iff (F : Fileioc V) (a : AppT V) (hvat : Distinct (F.detectAny a.vars)) :
    EntriesDenote F a ↔ ∀ v ∈ listed (F.detectAny a.vars), 65 ≤ v.1.1.headD 0 ∧ v.1.1.headD 0 < 128 := by
  have hmem : ∀ {i v}, (listed (F.detectAny a.vars))[i]? = some v → v ∈ F.detectAny a.vars :=
    fun h => (List.mem_filter.1 (List.mem_of_getElem? h)).1
  constructor
  · intro h v hv
    obtain ⟨i, hi⟩ := List.getElem?_of_mem hv
    have hfile := localFiles_of_listed hi
    exact (str_localFile_iff hfile).1 ((h.exact i v hi v (hmem hi)).2 rfl).1
  · intro h
    have hname : ∀ {i v}, (listed (F.detectAny a.vars))[i]? = some v →
        cstr v.1.1 = ((utilGetLocalFiles F a).localFiles i).str ∧
          osKind v.2 = osKind (osType ((utilGetLocalFiles F a).localFiles i)) := by
      intro i v hi
      have hfile := localFiles_of_listed hi
      exact ⟨(str_localFile_iff hfile).2 (h v (List.mem_of_getElem? hi)), osKind_localFile hfile⟩
    constructor
    · intro i v hi w hw
      obtain ⟨hstr, hkind⟩ := hname hi
      constructor
      · rintro ⟨hstr', hkind'⟩
        exact hvat w hw v (hmem hi) (hstr'.trans hstr.symm) (hkind'.trans hkind.symm)
      · rintro rfl
        exact ⟨hstr, hkind⟩
    · intro i j v w hi hj hstr htype
      obtain ⟨hv, hkv⟩ := hname hi
      obtain ⟨hw, hkw⟩ := hname hj
      exact hvat v (hmem hi) w (hmem hj) ((hv.trans hstr).trans hw.symm) ((hkv.trans (congrArg osKind htype)).trans hkw.symm)

def vatOnly : Fileioc (List (Name8 × UInt8)) where
  detectAny vars := vars
  openVar _ _ _ := ⟨0, 0, false, fun _ => 0⟩
  writeVar vars _ _ _ _ := vars
  deleteVar vars _ _ := vars

theorem entry_denotes_two :
    EntriesDenote vatOnly { vars := [(name8 (ascii "FOO"), osTypePrgm), (name8 (ascii "FOO"), osTypeAppvar)] } := by
  refine (entry_denotes_iff vatOnly _ ?_).2 (by decide)
  unfold Distinct
  decide

/-- A hidden program `FOO` beside a visible one: both entries have the name of the visible one. -/
theorem entry_shared : ¬ EntriesDenote vatOnly
    { vars := [(name8 (6 :: ascii "OO"), osTypePrgm), (name8 (ascii "FOO"), osTypePrgm)] } := by
  intro h
  exact absurd (h.unshared 0 1 _ _ rfl rfl (by decide) (by decide)) (by decide)

end LwftpCe.App
