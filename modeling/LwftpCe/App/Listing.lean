import LwftpCe.App.Main

/-!
# The entries of a listing, and the paths that are made of them

`ftp_AddRemoteFile` keeps eight bytes of a name, and of a file's name only those before the first dot; the operations
put the name together again from these bytes and the type.
-/

namespace LwftpCe.App

open Lib Lwftp List Function Option

variable {V : Type} {a : AppT V} {ty : FileType} {N : Bytes} {f : FileT} {name base : Bytes} {c : UInt8}

/-! ### Lines -/

def accepted (a : AppT V) : Option (FileType × Bytes) :=
  match strchr 32 a.rxBuf, strstr (ascii "type=") (cstr a.rxBuf) with
  | some n, some t =>
    let type := entryType (t.drop 5) (cstr n.tail)
    if maxRemoteFiles ≤ a.total true ∨ type = .unknown then none else some (type, cstr n.tail)
  | _, _ => none

lemma split_extension (hl : 4 ≤ name.length) (hx : ascii ".8x" <+: name.drop (name.length - 4)) (hc : name.getLast? = some c) :
    name = name.take (name.length - 4) ++ ascii ".8x" ++ [c] := by
  obtain ⟨t, ht⟩ := hx
  have hlen := congrArg List.length ht
  have h3 : (ascii ".8x").length = 3 := rfl
  rw [length_append, length_drop] at hlen
  obtain ⟨x, rfl⟩ : ∃ x, t = [x] := length_eq_one_iff.1 (by omega)
  have hname : name = name.take (name.length - 4) ++ ascii ".8x" ++ [x] := by
    rw [append_assoc, ht, take_append_drop]
  rw [hname] at hc
  obtain rfl : x = c := by simpa using hc
  exact hname

lemma entryType_file {type : Bytes} {n : Name8} (h : entryType type name ≠ .unknown) (hd : entryType type name ≠ .dir) :
    name = name.take (name.length - 4) ++ extension ⟨entryType type name, n⟩ := by
  unfold entryType at h hd ⊢
  split_ifs at h hd ⊢ with h1 h2 h3 h4
  · exact absurd rfl hd
  · exact (split_extension h2.1 h2.2 h3).trans (append_assoc _ _ _)
  · exact (split_extension h2.1 h2.2 h4).trans (append_assoc _ _ _)
  · exact absurd rfl h
  · exact absurd rfl h

lemma ftpAddRemoteFile_accepted (h : accepted a = some (ty, N)) : ftpAddRemoteFile a = { a with
        remoteFiles := update a.remoteFiles (a.total true)
          ⟨ty, (a.remoteFiles (a.total true)).name.copy (entryName ty N)⟩
        total := update a.total true (uadd (a.total true) 1) } := by
  unfold accepted at h
  split at h
  · next n t hn ht =>
    obtain ⟨hc, h⟩ := ite_none_left_eq_some.1 h
    obtain ⟨hmax, hty⟩ := not_or.1 hc
    cases h
    unfold ftpAddRemoteFile
    simp only [hn, ht, hmax, if_false, if_neg hty]
  · cases h

lemma ftpAddRemoteFile_refused (h : accepted a = none) :
    ∃ l, ftpAddRemoteFile a = { a with remoteFiles := l } ∧ ∀ i, (l i).name = (a.remoteFiles i).name := by
  unfold ftpAddRemoteFile
  cases hn : strchr 32 a.rxBuf with
  | none => exact ⟨a.remoteFiles, rfl, fun _ => rfl⟩
  | some n =>
    cases ht : strstr (ascii "type=") (cstr a.rxBuf) with
    | none => exact ⟨a.remoteFiles, rfl, fun _ => rfl⟩
    | some t =>
      dsimp only
      by_cases hmax : maxRemoteFiles ≤ a.total true
      · exact ⟨a.remoteFiles, if_pos hmax, fun _ => rfl⟩
      · have hty : entryType (t.drop 5) (cstr n.tail) = .unknown := by
          by_contra hne
          simp [accepted, hn, ht, hmax, hne] at h
        refine ⟨update a.remoteFiles (a.total true) ⟨.unknown, (a.remoteFiles (a.total true)).name⟩, ?_, fun i => ?_⟩
        · rw [if_neg hmax, if_pos hty, hty]
        · by_cases hi : i = a.total true
          · subst hi
            simp
          · simp [hi]

lemma accepted_line (h : accepted a = some (ty, N)) :
    a.total true < maxRemoteFiles ∧ 0 ∉ N ∧ ∀ n, ty ≠ .dir → N = N.take (N.length - 4) ++ extension ⟨ty, n⟩ := by
  unfold accepted at h
  split at h
  · next n t hn ht =>
    obtain ⟨hc, h⟩ := ite_none_left_eq_some.1 h
    obtain ⟨hmax, hty⟩ := not_or.1 hc
    cases h
    exact ⟨Nat.lt_of_not_le hmax, nul_notMem_cstr _, fun n hd => entryType_file hty hd⟩
  · cases h

/-! ### A listing -/

def listing (a : AppT V) (ds : List (Option Bytes)) : AppT V :=
  ds.foldl (fun a d => ftpListDataSink d a) a.clearRemote

/-- The free entries of the remote list have no name. -/
structure Fresh (a : AppT V) : Prop where
  total : a.total true ≤ maxRemoteFiles
  name : ∀ i, a.total true ≤ i → i < maxRemoteFiles → (a.remoteFiles i).name = name8 []

lemma Fresh.clearRemote (a : AppT V) : Fresh a.clearRemote where
  total := Nat.zero_le _
  name i _ hi := by simp [AppT.clearRemote, FileList.clear, hi, FileT.zero]

lemma Fresh.ftpAddRemoteFile (h : Fresh a) : Fresh (ftpAddRemoteFile a) := by
  cases ha : accepted a with
  | none =>
    obtain ⟨l, hl, hn⟩ := ftpAddRemoteFile_refused ha
    rw [hl]
    exact ⟨h.total, fun i hi hm => (hn i).trans (h.name i hi hm)⟩
  | some e =>
    have hlt := (accepted_line ha).1
    have hadd : uadd (a.total true) 1 = a.total true + 1 :=
      Nat.mod_eq_of_lt (lt_of_le_of_lt (Nat.succ_le_of_lt hlt) (by decide))
    rw [ftpAddRemoteFile_accepted ha]
    constructor
    · simp only [update_self, hadd]
      exact hlt
    · intro i hi hm
      simp only [update_self, hadd] at hi
      simp only [ne_eq, show i ≠ a.total true by omega, not_false_eq_true, update_of_ne]
      exact h.name i (by omega) hm

lemma Fresh.endLine (h : Fresh a) : Fresh (endLine a) := by
  have ht : Fresh (terminate a) := ⟨h.total, h.name⟩
  exact ⟨ht.ftpAddRemoteFile.total, ht.ftpAddRemoteFile.name⟩

lemma Fresh.listBytes (d : Bytes) (h : Fresh a) : Fresh (listBytes d a) := by
  induction d generalizing a with
  | nil => exact h
  | cons c d ih =>
    unfold App.listBytes
    split_ifs
    · exact ih h.endLine
    · exact ih ⟨h.total, h.name⟩
    · exact h

lemma listing_fresh (a : AppT V) (ds : List (Option Bytes)) : Fresh (listing a ds) := by
  have key : ∀ (ds : List (Option Bytes)) (b : AppT V), Fresh b →
      Fresh (ds.foldl (fun a d => ftpListDataSink d a) b) := by
    intro ds
    induction ds with
    | nil => exact fun _ h => h
    | cons d ds ih =>
      intro b hb
      refine ih _ ?_
      cases d with
      | none => exact hb
      | some d => exact hb.listBytes d
  exact key ds _ (Fresh.clearRemote a)

/-! ### Names -/

lemma copy_cleared {new : Bytes} (hl : new.length ≤ 8) (h0 : 0 ∉ new) : cstr ((name8 []).copy new).1 = new := by
  have h : ((name8 []).copy new).1 = new ++ replicate (8 - new.length) 0 := by
    have hz : (name8 []).1 = replicate 8 0 := rfl
    simp only [Name8.copy, hz, drop_replicate]
    rw [take_of_length_le]
    simp only [length_append, length_replicate]
    omega
  rw [h, cstr_append_replicate h0]

lemma entryName_length (ty : FileType) (N : Bytes) : (entryName ty N).length ≤ 8 := by
  unfold entryName
  rw [length_take]
  omega

lemma entryName_subset (h : c ∈ entryName ty N) : c ∈ N := by
  have := mem_of_mem_take h
  split_ifs at this
  · exact this
  · exact (takeWhile_sublist _).mem this

lemma stored_name (hf : Fresh a) (h : accepted a = some (ty, N)) :
    (ftpAddRemoteFile a).remoteFiles (a.total true) = ⟨ty, (name8 []).copy (entryName ty N)⟩ ∧
    ((ftpAddRemoteFile a).remoteFiles (a.total true)).str = entryName ty N := by
  obtain ⟨hlt, h0, -⟩ := accepted_line h
  have he : (ftpAddRemoteFile a).remoteFiles (a.total true) = ⟨ty, (name8 []).copy (entryName ty N)⟩ := by
    rw [ftpAddRemoteFile_accepted h]
    simp [hf.name _ le_rfl hlt]
  refine ⟨he, ?_⟩
  rw [he]
  exact copy_cleared (entryName_length ty N) fun hm => h0 (entryName_subset hm)

lemma entryName_file (hd : ty ≠ .dir) {ext : Bytes} (hx : ext.head? = some 46) :
    entryName ty (base ++ ext) = base ↔ base.length ≤ 8 ∧ 46 ∉ base := by
  unfold entryName
  rw [if_neg hd]
  constructor
  · intro h
    have hl := congrArg List.length h
    rw [length_take] at hl
    refine ⟨by omega, fun hm => ?_⟩
    rw [← h] at hm
    simpa using mem_takeWhile_imp (mem_of_mem_take hm)
  · rintro ⟨hl, hm⟩
    obtain ⟨ext, rfl⟩ : ∃ t, ext = 46 :: t := by
      cases ext with
      | nil => cases hx
      | cons c t => exact ⟨t, by simpa using hx⟩
    rw [takeWhile_append_of_pos fun c hc => by
      simp only [decide_eq_true_eq]
      rintro rfl
      exact hm hc]
    simpa using hl

/-! ### Paths -/

def builtPath (F : Fileioc V) (op : Op) (s : Prog V) : Option Bytes :=
  let path := (runOp F (fun _ s => s) s op).1.usr.path
  if path = s.usr.path then none else some path

def Op.onFile : Op → Bool
  | .download | .delete | .move => true
  | _ => false

lemma append_cons_ne (p t : Bytes) (c : UInt8) : p ++ c :: t ≠ p := by
  intro h
  have := congrArg List.length h
  simp at this

section Paths

variable (F : Fileioc V) {s : Prog V} (hc : s.usr.remoteColumn = true)
include hc

lemma builtPath_download : builtPath F .download s = some (filePath s.usr.path s.usr.remoteEntry) := by
  have hp : (runOp F (fun _ s => s) s .download).1.usr.path = filePath s.usr.path s.usr.remoteEntry := by
    simp [runOp, utilDownloadFile, AppT.startDownload, hc, onUser, onApp, appendName]
  unfold builtPath
  simp only [hp]
  exact if_neg (append_cons_ne _ _ _)

lemma builtPath_onFile (hd : s.usr.remoteEntry.type ≠ .dir) {op : Op} (ho : op.onFile) :
    builtPath F op s = some (filePath s.usr.path s.usr.remoteEntry) := by
  have hp : (runOp F (fun _ s => s) s op).1.usr.path = filePath s.usr.path s.usr.remoteEntry := by
    cases op with
    | download => simp [runOp, utilDownloadFile, AppT.startDownload, hc, onUser, onApp, appendName]
    | delete => simp [runOp, utilDeleteFile, hc, hd, onUser, onApp, appendName]
    | move => simp [runOp, utilMoveFile, hc, hd, onUser, onApp, appendName]
    | enter | back | upload => cases ho
  unfold builtPath
  simp only [hp]
  exact if_neg (append_cons_ne _ _ _)

lemma builtPath_dir (hd : s.usr.remoteEntry.type = .dir) : builtPath F .delete s = none ∧ builtPath F .move s = none := by
  constructor <;> simp [builtPath, runOp, utilDeleteFile, utilMoveFile, hc, hd]

lemma builtPath_enter : builtPath F .enter s = some (dirPath s.usr.path s.usr.remoteEntry) := by
  have hp : (runOp F (fun _ s => s) s .enter).1.usr.path = dirPath s.usr.path s.usr.remoteEntry := by
    simp [runOp, utilChangeDir, onUser, onApp, AppT.dirEntry, AppT.remoteEntry, hc]
  unfold builtPath
  simp only [hp]
  exact if_neg (append_cons_ne _ _ _)

end Paths

lemma filePath_iff (p N : Bytes) : filePath p f = p ++ 47 :: N ↔ f.str ++ extension f = N := by
  simp [filePath, fileName]

lemma filePath_file (p : Bytes) (hd : f.type ≠ .dir) (hs : f.str = entryName f.type (base ++ extension f)) :
    filePath p f = p ++ 47 :: (base ++ extension f) ↔ base.length ≤ 8 ∧ 46 ∉ base := by
  rw [filePath_iff, append_cancel_right_eq, hs]
  exact entryName_file hd rfl

lemma filePath_dir (p : Bytes) (hd : f.type = .dir) (hs : f.str = N.take 8) :
    filePath p f = p ++ 47 :: N ↔ N.length = 12 ∧ ascii ".8xp" <:+ N := by
  have hx : extension f = ascii ".8xp" := by
    simp only [extension, hd]
    rfl
  have h4 : (ascii ".8xp").length = 4 := rfl
  rw [filePath_iff, hs, hx]
  constructor
  · intro h
    have hl := congrArg List.length h
    rw [length_append, length_take] at hl
    exact ⟨by omega, N.take 8, h⟩
  · rintro ⟨hl, t, rfl⟩
    rw [length_append] at hl
    rw [take_left' (by omega)]

/-- **An entry denotes the file it came from exactly if the name fits.**  A line of a listing names `N`, and the cursor is on its
entry.  For a file, the path that each operation builds ends in `N` exactly if the part before the extension has at most eight
bytes and no dot; a directory is entered under its name exactly if that has at most eight bytes, and a download makes a file
name of it. -/
theorem entry_path_iff (F : Fileioc V) (a₀ : AppT V) (ds : List (Option Bytes)) (ty : FileType) (N : Bytes)
    (hN : accepted (terminate (listing a₀ ds)) = some (ty, N)) (s : Prog V) (hc : s.usr.remoteColumn = true)
    (he : s.usr.remoteEntry =
      (ftpAddRemoteFile (terminate (listing a₀ ds))).remoteFiles ((listing a₀ ds).total true)) :
    (ty ≠ .dir → ∀ op : Op, op.onFile → (builtPath F op s = some (s.usr.path ++ 47 :: N) ↔
      N.length ≤ 12 ∧ 46 ∉ N.take (N.length - 4))) ∧
    (ty = .dir →
      (builtPath F .enter s = some (s.usr.path ++ 47 :: N) ↔ N.length ≤ 8) ∧
      (builtPath F .download s = some (s.usr.path ++ 47 :: N) ↔ N.length = 12 ∧ ascii ".8xp" <:+ N) ∧
      builtPath F .delete s = none ∧ builtPath F .move s = none) := by
  have hf := listing_fresh a₀ ds
  obtain ⟨hentry, hstr⟩ := stored_name (a := terminate (listing a₀ ds)) ⟨hf.total, hf.name⟩ hN
  obtain ⟨-, -, hext⟩ := accepted_line hN
  generalize hfile : s.usr.remoteEntry = f at he
  obtain rfl : f.type = ty := (congrArg FileT.type he).trans (congrArg FileT.type hentry)
  have hname : f.str = entryName f.type N := (congrArg FileT.str he).trans hstr
  constructor
  · intro hd op ho
    have hsplit := hext f.name hd
    have hbase := filePath_file s.usr.path hd (hname.trans (congrArg (entryName f.type) hsplit))
    rw [← hsplit, length_take] at hbase
    rw [builtPath_onFile F hc (by rwa [hfile]) ho, hfile, some_inj, hbase]
    constructor
    · rintro ⟨hl, hm⟩
      exact ⟨by omega, hm⟩
    · rintro ⟨hl, hm⟩
      exact ⟨by omega, hm⟩
  · intro hd
    have hstr' : f.str = N.take 8 := by
      rw [hname, hd]
      rfl
    refine ⟨?_, ?_, builtPath_dir F hc (by rwa [hfile])⟩
    · rw [builtPath_enter F hc, hfile, dirPath, hstr']
      simp
    · rw [builtPath_download F hc, hfile, some_inj, filePath_dir s.usr.path hd hstr']

def cursorOn (a : AppT Unit) (i : ℕ) : Prog Unit :=
  initial mainUser { a with remoteColumn := true, selected := fun _ => i }

theorem entry_path_short : builtPath noVars .delete
      (cursorOn (ftpAddRemoteFile (terminate (listing { vars := () } [some (ascii "type=file; GAME.8xp\r")]))) 0) =
      some (ascii "/GAME.8xp") :=
  ((entry_path_iff noVars { vars := () } [some (ascii "type=file; GAME.8xp\r")] .prog (ascii "GAME.8xp") (by decide +kernel)
    (cursorOn (ftpAddRemoteFile (terminate (listing { vars := () } [some (ascii "type=file; GAME.8xp\r")]))) 0) rfl
    (by decide +kernel)).1 (by decide) .delete rfl).2 (by decide)

/-- **Two names that end up as one.**  The lines name `LONGNAME1.8xp` and `LONGNAME2.8xp`; to delete either file is to
delete `LONGNAME.8xp`. -/
theorem names_collide : accepted (terminate (listing { vars := () } [some (ascii "type=file; LONGNAME1.8xp\r")])) =
      some (.prog, ascii "LONGNAME1.8xp") ∧
    accepted (terminate (listing { vars := () }
      [some (ascii "type=file; LONGNAME1.8xp\r\ntype=file; LONGNAME2.8xp\r")])) = some (.prog, ascii "LONGNAME2.8xp") ∧
    ∀ i < 2, builtPath noVars .delete (cursorOn (listing { vars := () }
      [some (ascii "type=file; LONGNAME1.8xp\r\ntype=file; LONGNAME2.8xp\r\n")]) i) = some (ascii "/LONGNAME.8xp") := by
  refine ⟨by decide +kernel, by decide +kernel, by decide +kernel⟩

end LwftpCe.App
