import LwftpCe.App.Ftp

/-!
# The lists in memory

`LOCAL_FILES` and `REMOTE_FILES` are pointers to fixed addresses, with 8400 bytes reserved for both lists.  Offsets are
counted from `LOCAL_FILES`.  `REMOTE_FILES` adds `sizeof(struct file_t) * MAX_LOCAL_FILES` to a pointer to
`struct file_t`, so that it is scaled twice.
-/

namespace LwftpCe.App

open Lib List

variable {V : Type} {v : Name8 × UInt8} {f : FileT} {i j : ℕ} {vat : List (Name8 × UInt8)} {w : Write}

/-! ### The writes -/

def sizeofFile : ℕ := 10

def remoteBase : ℕ := sizeofFile * (sizeofFile * maxLocalFiles)

def reserved : ℕ := 8400

def FileType.byte : FileType → UInt8
  | .unknown => 0
  | .dir => 1
  | .prog => 2
  | .appvar => 3

structure Write where
  offset : ℕ
  bytes : Bytes

def entryWrites (i : ℕ) (type : FileType) (name : Name8) : List Write :=
  let c := name.1.headD 0
  [⟨sizeofFile * i, [type.byte]⟩, ⟨sizeofFile * i + 1, name.1⟩] ++
    if c < 65 ∨ 128 ≤ c then [⟨sizeofFile * i + 1, [c + 64]⟩] else []

def scanWrites : ℕ → List (Name8 × UInt8) → List Write
  | _, [] => []
  | i, v :: vat =>
    let c := v.1.1.headD 0
    if c = 33 ∨ c = 35 then scanWrites i vat
    else if v.2 = osTypeAppvar then entryWrites i .appvar v.1 ++ scanWrites (i + 1) vat
    else if v.2 = osTypeProtPrgm ∨ v.2 = osTypePrgm then entryWrites i .prog v.1 ++ scanWrites (i + 1) vat
    else scanWrites i vat

def localWrites (vat : List (Name8 × UInt8)) : List Write :=
  ⟨0, List.replicate (sizeofFile * maxLocalFiles) 0⟩ :: scanWrites 0 vat

def clearWrites : List Write := [⟨remoteBase, List.replicate (sizeofFile * maxRemoteFiles) 0⟩]

def addWrites (a : AppT V) : List Write :=
  match strchr 32 a.rxBuf, strstr (ascii "type=") (cstr a.rxBuf) with
  | some n, some t =>
    let i := a.total true
    if maxRemoteFiles ≤ i then []
    else
      let name := cstr n.tail
      let type := entryType (t.drop 5) name
      let entry := remoteBase + sizeofFile * i
      ⟨entry, [FileType.unknown.byte]⟩ ::
        if type = .unknown then [] else [⟨entry, [type.byte]⟩, ⟨entry + 1, entryName type name⟩]
  | _, _ => []

/-! ### Runs -/

/-- The calls that write into the lists: a scan of the variables, the start of a listing, and a line of it. -/
inductive ListCall (V : Type) where
  | getLocal (vars : V)
  | getRemote
  | addRemote (line : Bytes)

namespace ListSys

variable (F : Fileioc V)

def before (a : AppT V) : ListCall V → AppT V
  | .getLocal vars => { a with vars := vars }
  | .getRemote => a
  | .addRemote line => { a with rxBuf := line }

def writes (a : AppT V) (e : ListCall V) : List Write :=
  match e with
  | .getLocal vars => localWrites (F.detectAny vars)
  | .getRemote => clearWrites
  | .addRemote _ => addWrites (before a e)

def step (a : AppT V) (e : ListCall V) : Option (AppT V) :=
  some <| match e with
    | .getLocal _ => utilGetLocalFiles F (before a e)
    | .getRemote => (before a e).clearRemote
    | .addRemote _ => ftpAddRemoteFile (before a e)

/-- The byte `x` belongs to the entries of the list that the call does not fill. -/
def OfOther (a : AppT V) (e : ListCall V) (x : ℕ) : Prop :=
  match e with
  | .getLocal _ => remoteBase ≤ x ∧ x < remoteBase + sizeofFile * a.total true
  | _ => x < sizeofFile * a.total false

def WritesInside (a : AppT V) (e : ListCall V) : Prop :=
  ∀ w ∈ writes F a e, ∀ x, w.offset ≤ x → x < w.offset + w.bytes.length → x < reserved ∧ ¬ OfOther a e x

def Fits (a : AppT V) : ListCall V → Prop
  | .getLocal vars => ((F.detectAny vars).filterMap localFile).length ≤ 840
  | .getRemote => False
  | .addRemote line => a.total true < maxRemoteFiles → strchr 32 line = none ∨ strstr (ascii "type=") (cstr line) = none

end ListSys

/-! ### The loop over the variables -/

lemma localFile_name (h : localFile v = some f) :
    f.name.1 = if v.1.1.headD 0 < 65 ∨ 128 ≤ v.1.1.headD 0 then v.1.1.set 0 (v.1.1.headD 0 + 64) else v.1.1 := by
  unfold localFile at h
  dsimp only at h
  split_ifs at h ⊢ <;> cases h <;> rfl

lemma scanWrites_none (h : localFile v = none) (i : ℕ) (vat : List (Name8 × UInt8)) : scanWrites i (v :: vat) = scanWrites i vat := by
  unfold localFile at h
  rw [scanWrites]
  dsimp only at h ⊢
  split_ifs at h ⊢ <;> rfl

lemma scanWrites_some (h : localFile v = some f) (i : ℕ) (vat : List (Name8 × UInt8)) :
    scanWrites i (v :: vat) = entryWrites i f.type v.1 ++ scanWrites (i + 1) vat := by
  unfold localFile at h
  rw [scanWrites]
  dsimp only at h ⊢
  split_ifs at h ⊢ <;> cases h <;> rfl

lemma entryWrites_bound {type : FileType} {name : Name8} (h : w ∈ entryWrites i type name) :
    sizeofFile * i ≤ w.offset ∧ w.offset + w.bytes.length ≤ sizeofFile * i + 9 := by
  unfold entryWrites at h
  rcases mem_append.1 h with h | h
  · rcases mem_pair.1 h with rfl | rfl
    · exact ⟨Nat.le_refl _, by simp⟩
    · exact ⟨Nat.le_succ _, by dsimp only; omega⟩
  · split_ifs at h
    · cases mem_singleton.1 h
      exact ⟨Nat.le_succ _, by simp⟩
    · cases h

lemma scanWrites_bound (h : w ∈ scanWrites i vat) :
    sizeofFile * i ≤ w.offset ∧ w.offset + w.bytes.length ≤ sizeofFile * (i + (vat.filterMap localFile).length) := by
  induction vat generalizing i with
  | nil => cases h
  | cons v vat ih =>
    cases hv : localFile v with
    | none =>
      rw [scanWrites_none hv] at h
      rw [filterMap_cons_none hv]
      exact ih h
    | some f =>
      rw [scanWrites_some hv] at h
      rw [filterMap_cons_some hv, length_cons]
      unfold sizeofFile at ih ⊢
      rcases mem_append.1 h with h | h
      · have := entryWrites_bound h
        unfold sizeofFile at this
        omega
      · have := ih h
        omega

lemma scanWrites_reaches (hi : i ≤ j) (hj : j < i + (vat.filterMap localFile).length) :
    ∃ b, (⟨sizeofFile * j, [b]⟩ : Write) ∈ scanWrites i vat := by
  induction vat generalizing i with
  | nil => exact absurd hj (by simpa using hi)
  | cons v vat ih =>
    cases hv : localFile v with
    | none =>
      rw [scanWrites_none hv]
      rw [filterMap_cons_none hv] at hj
      exact ih hi hj
    | some f =>
      rw [scanWrites_some hv]
      rw [filterMap_cons_some hv, length_cons] at hj
      rcases Nat.eq_or_lt_of_le hi with rfl | hlt
      · exact ⟨f.type.byte, mem_append_left _ (mem_append_left _ mem_cons_self)⟩
      · obtain ⟨b, hb⟩ := ih hlt (by omega)
        exact ⟨b, mem_append_right _ hb⟩

namespace ListSys

lemma writesInside_iff_fits (F : Fileioc V) (a : AppT V) (e : ListCall V) : WritesInside F a e ↔ Fits F a e := by
  have hbase : remoteBase = 50000 := rfl
  have hreserved : reserved = 8400 := rfl
  cases e with
  | getLocal vars =>
    constructor
    · intro h
      by_contra hmany
      obtain ⟨b, hb⟩ := scanWrites_reaches (Nat.zero_le 840) (show 840 < 0 + _ by rw [Nat.zero_add]; exact Nat.not_le.1 hmany)
      have hx := (h _ (mem_cons_of_mem _ hb) (sizeofFile * 840) (Nat.le_refl _) (Nat.lt_succ_self _)).1
      unfold sizeofFile at hx
      omega
    · intro hfew w hw x hx hlt
      have hfew : ((F.detectAny vars).filterMap localFile).length ≤ 840 := hfew
      have hbound : x < reserved := by
        rcases mem_cons.1 hw with rfl | hw
        · dsimp only at hx hlt
          rw [length_replicate] at hlt
          unfold sizeofFile maxLocalFiles at hlt
          omega
        · have := (scanWrites_bound hw).2
          unfold sizeofFile at this
          omega
      refine ⟨hbound, fun hother => ?_⟩
      have := hother.1
      omega
  | getRemote =>
    refine ⟨fun h => ?_, fun h => h.elim⟩
    have hpos : 0 < (replicate (sizeofFile * maxRemoteFiles) (0 : UInt8)).length := by
      rw [length_replicate]
      decide
    unfold WritesInside writes clearWrites at h
    generalize replicate (sizeofFile * maxRemoteFiles) (0 : UInt8) = zeros at h hpos
    have hx := (h _ mem_cons_self remoteBase (Nat.le_refl _) (Nat.lt_add_of_pos_right hpos)).1
    omega
  | addRemote line =>
    constructor
    · intro h htotal
      by_contra hboth
      obtain ⟨hn, ht⟩ := not_or.1 hboth
      obtain ⟨n, hn⟩ := Option.ne_none_iff_exists'.1 hn
      obtain ⟨t, ht⟩ := Option.ne_none_iff_exists'.1 ht
      have hw : (⟨remoteBase + sizeofFile * a.total true, [FileType.unknown.byte]⟩ : Write) ∈
          addWrites (before a (.addRemote line)) := by
        unfold addWrites before
        rw [hn, ht]
        dsimp only
        rw [if_neg (Nat.not_le.2 htotal)]
        exact mem_cons_self
      have hx := (h _ hw _ (Nat.le_refl _) (Nat.lt_succ_self _)).1
      dsimp only at hx
      omega
    · intro h w hw
      have hnone : addWrites (before a (.addRemote line)) = [] := by
        unfold addWrites before
        by_cases htotal : a.total true < maxRemoteFiles
        · rcases h htotal with hn | ht
          · rw [hn]
          · rw [ht]
            cases strchr 32 line <;> rfl
        · split
          · exact if_pos (Nat.not_lt.1 htotal)
          · rfl
      rw [writes, hnone] at hw
      cases hw

/-- **Where the writes stay inside the reserved memory.** -/
theorem writes_inside_iff (F : Fileioc V) (a : AppT V) (es : List (ListCall V)) :
    Along (WritesInside F) (step F) a es ↔ Along (Fits F) (step F) a es := by
  have hcall : WritesInside F = Fits F := by
    funext a e
    exact propext (writesInside_iff_fits F a e)
  rw [hcall]

/-- The start of a listing clears memory behind the reserved one. -/
theorem writes_outside : ¬ Along (WritesInside noVars) (step noVars) { vars := () } [.getRemote] := by
  intro h
  exact (writesInside_iff_fits noVars _ _).1 h.1

end ListSys

end LwftpCe.App
