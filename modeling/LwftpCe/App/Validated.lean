import LwftpCe.App.TiFile
import Mathlib.Data.List.ReduceOption

/-!
# What a download is checked for

`ftp_RetrCallback` finds everything in `FILE_BUFFER` by lengths that it reads there, and tests one thing: that the sum over
the data section is the number behind the variable.  It knows neither how many bytes have arrived nor whether the lengths
fit each other.  `IsTiFile` is a complete file, `Reads` are the offsets the callback looks at.
-/

namespace LwftpCe.App

open Lib List Mem

variable {V : Type}

/-! ### Complete files -/

def field (file : Bytes) (a : ℕ) : ℕ := (Mem.ofBytes file).word a

def sectionLength (file : Bytes) : ℕ := field file 53
def varLength (file : Bytes) : ℕ := field file 70

def SumMatches (file : Bytes) : Prop :=
  utilComputeChecksum (Mem.ofBytes file) 55 (sectionLength file) = field file (72 + varLength file)

/-- A complete file with one variable: 55 bytes, the data section, the checksum.  The data section is 17 bytes of
description, which has the length of the variable twice, and the variable, which starts with its own size word. -/
structure IsTiFile (file : Bytes) : Prop where
  size : 2 ≤ varLength file
  copy : field file 57 = varLength file
  «section» : sectionLength file = varLength file + 17
  length : file.length = varLength file + 74
  checksum : SumMatches file

def fileVar (file : Bytes) : Received :=
  ⟨cstr ((file.drop 60).take 8), file.getD 59 0, (file.drop 74).take (varLength file - 2), file.getD 69 0 = 0x80⟩

/-! ### What the callback reads -/

/-- The offsets in `FILE_BUFFER` that `ftp_RetrCallback` reads. -/
inductive Reads (m : Mem) : ℕ → Prop
  | «section» {i} : 53 ≤ i → i < 55 → Reads m i
  | summed {i} : 55 ≤ i → i < 55 + m.word 53 → Reads m i
  | type : Reads m 59
  | name {i} : 60 ≤ i → i < 68 → Reads m i
  | flag : Reads m 69
  | size {i} : 70 ≤ i → i < 72 → Reads m i
  | checksum {i} : 72 + m.word 70 ≤ i → i < 74 + m.word 70 → Reads m i
  | data {i} : utilComputeChecksum m 55 (m.word 53) = m.word (72 + m.word 70) →
      74 ≤ i → i < 74 + usub (m.word 70) 2 → Reads m i

/-! ### Receiving -/

def received (a : AppT V) (ds : List (Option Bytes)) : Mem :=
  (ds.foldl (fun a d => ftpRetrDataSink d a) a.startDownload).fileBuffer

lemma ftpRetrDataSink_some {a : AppT V} {m : Mem} {stream : Bytes} (d : Bytes)
    (hm : a.fileBuffer = m.write 0 (stream.take fileBufferSize)) (hr : a.rxOffset = min stream.length fileBufferSize) :
    (ftpRetrDataSink (some d) a).fileBuffer = m.write 0 ((stream ++ d).take fileBufferSize) ∧
    (ftpRetrDataSink (some d) a).rxOffset = min (stream ++ d).length fileBufferSize := by
  set d' := if a.rxOffset + d.length > fileBufferSize then d.take (fileBufferSize - a.rxOffset) else d with hd'
  have hcut : (stream ++ d).take fileBufferSize = stream.take fileBufferSize ++ d' := by
    rw [take_append, hd']
    split_ifs with h
    · congr 2
      omega
    · rw [take_of_length_le (l := d) (by omega)]
  constructor
  · change a.fileBuffer.write a.rxOffset d' = _
    rw [hcut, hm, ← write_append, Nat.zero_add, length_take, Nat.min_comm, ← hr]
  · change a.rxOffset + d'.length = _
    have hlen : min fileBufferSize (stream ++ d).length = min fileBufferSize stream.length + d'.length := by
      rw [← length_take, hcut, length_append, length_take]
    rw [hr, Nat.min_comm _ fileBufferSize, Nat.min_comm _ fileBufferSize, hlen]

lemma received_eq (a : AppT V) (ds : List (Option Bytes)) :
    received a ds = downloaded a.fileBuffer (ds.reduceOption.flatten.take fileBufferSize) := by
  have key : ∀ (ds : List (Option Bytes)) (x : AppT V) (m : Mem) (stream : Bytes),
      x.fileBuffer = m.write 0 (stream.take fileBufferSize) → x.rxOffset = min stream.length fileBufferSize →
      (ds.foldl (fun a d => ftpRetrDataSink d a) x).fileBuffer =
        m.write 0 ((stream ++ ds.reduceOption.flatten).take fileBufferSize) := by
    intro ds
    induction ds with
    | nil =>
      intro x m stream hm _
      simpa using hm
    | cons d ds ih =>
      intro x m stream hm hr
      cases d with
      | none => exact ih x m stream hm hr
      | some d =>
        obtain ⟨hm', hr'⟩ := ftpRetrDataSink_some d hm hr
        rw [foldl_cons, ih _ m _ hm' hr', reduceOption_cons_of_some, flatten_cons, append_assoc]
  exact key ds a.startDownload _ [] (by funext i; simp [AppT.startDownload, Mem.write]) rfl

lemma received_apply (a : AppT V) (ds : List (Option Bytes)) {i : ℕ} (h : i < fileBufferSize) :
    received a ds i = ofBytes ds.reduceOption.flatten i := by
  rw [received_eq]
  unfold downloaded
  rw [write_fill_zero _ h]
  unfold ofBytes
  rw [getD_eq_getElem?_getD, getD_eq_getElem?_getD, getElem?_take, if_pos h]

/-! ### The check -/

/-- What the callback makes of `FILE_BUFFER` after `file` has been received: it looks at received bytes only, and makes a
variable of a complete file only, the variable in it. -/
def Validated (file : Bytes) (m : Mem) : Prop :=
  (∀ i, Reads m i → i < min file.length fileBufferSize) ∧ ∀ v, receiveFile m = some v → IsTiFile file ∧ v = fileVar file

/-- The bytes contain everything that their lengths address, and the sum tells a file that is not complete. -/
def Checked (file : Bytes) : Prop :=
  55 + sectionLength file ≤ min file.length fileBufferSize ∧ 74 + varLength file ≤ min file.length fileBufferSize ∧
  (SumMatches file → IsTiFile file)

section Check

variable {file : Bytes} {m : Mem} (hm : ∀ i, i < fileBufferSize → m i = Mem.ofBytes file i)
include hm

lemma received_word {i : ℕ} (h : i + 1 < fileBufferSize) : m.word i = field file i :=
  word_congr (hm i (by omega)) (hm (i + 1) h)

lemma received_sum (h1 : 55 + sectionLength file ≤ fileBufferSize) (h2 : 74 + varLength file ≤ fileBufferSize) :
    utilComputeChecksum m 55 (m.word 53) = m.word (72 + m.word 70) ↔ SumMatches file := by
  rw [received_word hm (by decide : 53 + 1 < fileBufferSize), received_word hm (by decide : 70 + 1 < fileBufferSize)]
  rw [received_word hm (by unfold varLength at h2; omega),
    utilComputeChecksum_congr m (ofBytes file) (read_congr fun i _ hi => hm i ?_)]
  · rfl
  · unfold sectionLength at h1
    omega

lemma reads_inside_iff : (∀ i, Reads m i → i < min file.length fileBufferSize) ↔
    55 + sectionLength file ≤ min file.length fileBufferSize ∧ 74 + varLength file ≤ min file.length fileBufferSize ∧
    (SumMatches file → 2 ≤ varLength file) := by
  have h53 : m.word 53 = sectionLength file := received_word hm (by decide)
  have h70 : m.word 70 = varLength file := received_word hm (by decide)
  have hsize : fileBufferSize < uintRange := by decide
  constructor
  · intro h
    have hvar : 74 + varLength file ≤ min file.length fileBufferSize := by
      have := h (73 + m.word 70) (.checksum (by omega) (by omega))
      omega
    have hsec : 55 + sectionLength file ≤ min file.length fileBufferSize := by
      rcases Nat.eq_zero_or_pos (sectionLength file) with h0 | hpos
      · omega
      · have := h (54 + sectionLength file) (.summed (by omega) (by omega))
        omega
    refine ⟨hsec, hvar, fun hs => ?_⟩
    by_contra hlt
    -- the number of bytes would wrap around
    have hmatch := (received_sum hm (by omega) (by omega)).2 hs
    have hbig : usub (m.word 70) 2 = m.word 70 + uintRange - 2 := usub_of_lt (by decide) (by omega)
    have := h fileBufferSize (.data hmatch (by decide) (by omega))
    omega
  · rintro ⟨hsec, hvar, hle⟩ i hi
    cases hi with
    | data hmatch h1 h₂ =>
      have h2 := hle ((received_sum hm (by omega) (by omega)).1 hmatch)
      rw [usub_of_le (by omega) (by omega)] at h₂
      omega
    | _ => omega

lemma receiveFile_of_inside (h1 : 55 + sectionLength file ≤ min file.length fileBufferSize)
    (h2 : 74 + varLength file ≤ min file.length fileBufferSize) (h3 : SumMatches file → 2 ≤ varLength file) :
    (SumMatches file → receiveFile m = some (fileVar file)) ∧ (¬ SumMatches file → receiveFile m = none) := by
  have hsum := received_sum hm (by omega : _ ≤ fileBufferSize) (by omega)
  have h70 : m.word 70 = varLength file := received_word hm (by decide)
  have hsize : fileBufferSize < uintRange := by decide
  have hread : ∀ a n, a + n ≤ min file.length fileBufferSize → m.read a n = (file.drop a).take n := by
    intro a n h
    rw [← read_ofBytes (by omega)]
    exact read_congr fun i _ hi => hm i (by omega)
  constructor
  · intro hs
    unfold receiveFile
    rw [if_neg (not_not_intro (hsum.2 hs)), h70, usub_of_le (by omega) (h3 hs), hread 60 8 (by omega),
      hread 74 _ (by have := h3 hs; omega), hm 59 (by decide), hm 69 (by decide)]
    rfl
  · intro hs
    exact if_pos (mt hsum.1 hs)

lemma validated_iff : Validated file m ↔ Checked file := by
  unfold Validated Checked
  rw [reads_inside_iff hm]
  constructor
  · rintro ⟨⟨h1, h2, h3⟩, hv⟩
    exact ⟨h1, h2, fun hs => (hv _ ((receiveFile_of_inside hm h1 h2 h3).1 hs)).1⟩
  · rintro ⟨h1, h2, hs⟩
    have h3 := fun h => (hs h).size
    obtain ⟨hsome, hnone⟩ := receiveFile_of_inside hm h1 h2 h3
    refine ⟨⟨h1, h2, h3⟩, fun v hv => ?_⟩
    by_cases hm' : SumMatches file
    · rw [hsome hm'] at hv
      exact ⟨hs hm', (Option.some.inj hv).symm⟩
    · rw [hnone hm'] at hv
      cases hv

end Check

/-- **When the check is enough.**  Whatever arrives, in whatever pieces: the callback looks at received bytes only and makes a
variable of a complete file only exactly if the bytes contain everything that their two lengths address and the sum matches in a
complete file only. -/
theorem download_validated_iff (a : AppT V) (ds : List (Option Bytes)) :
    Validated ds.reduceOption.flatten (received a ds) ↔ Checked ds.reduceOption.flatten :=
  validated_iff fun _ => received_apply a ds

/-- **An empty download makes a variable.**  All lengths and sums are zero, so the check passes. -/
theorem empty_download_stored : (receiveFile (received ({ vars := () } : AppT Unit) [])).isSome ∧ ¬ IsTiFile [] ∧
    ¬ Validated [] (received ({ vars := () } : AppT Unit) []) := by
  have hsome : (receiveFile (received ({ vars := () } : AppT Unit) [])).isSome := by
    unfold receiveFile
    rfl
  have hfile : ¬ IsTiFile [] := fun h => absurd h.length (by decide)
  refine ⟨hsome, hfile, fun h => ?_⟩
  obtain ⟨v, hv⟩ := Option.isSome_iff_exists.1 hsome
  exact hfile (h.2 v hv).1

end LwftpCe.App
