import LwftpCe.App.Main

/-!
# The file of a variable, written and read back

`util_UploadFile` writes the file of a variable to `FILE_BUFFER`, `ftp_RetrCallback` makes a variable of the file it finds
there.  They do not agree on the layout:

* the flag byte behind the name is written only for an archived variable, and is always read: without it everything behind
  is read one byte off;
* the checksum is taken over all but the last two bytes of the variable, and compared with the sum over all of them.

`round_trip_iff` says which variables come back.
-/

namespace LwftpCe.App

open Lib Lwftp List Mem

variable {V : Type} {n N : ℕ}

/-! ### The checksum -/

lemma utilComputeChecksum_eq (m : Mem) (off n : ℕ) : utilComputeChecksum m off n = ((m.read off n).map UInt8.toNat).sum % 65536 := by
  have key : ∀ (l : Bytes) (x : ℕ), l.foldl (fun sum b => (sum + b.toNat) % 65536) (x % 65536) =
      (x + (l.map UInt8.toNat).sum) % 65536 := by
    intro l
    induction l with
    | nil => exact fun x => rfl
    | cons b l ih =>
      intro x
      rw [foldl_cons, ih]
      simp [Nat.add_assoc]
  have := key (m.read off n) 0
  rwa [Nat.zero_add] at this

lemma utilComputeChecksum_congr (m m' : Mem) {off : ℕ} (h : m.read off n = m'.read off n) :
    utilComputeChecksum m off n = utilComputeChecksum m' off n := by
  unfold utilComputeChecksum
  rw [h]

lemma utilComputeChecksum_add_two (m : Mem) (off n : ℕ) :
    utilComputeChecksum m off (n + 2) = utilComputeChecksum m off n ↔ m.read (off + n) 2 = [0, 0] := by
  have hbyte : ∀ b : UInt8, b.toNat = 0 ↔ b = 0 := fun b => by rw [← UInt8.toNat_inj]; rfl
  have h2 : m.read (off + n) 2 = [m (off + n), m (off + n + 1)] := rfl
  have hx := (m (off + n)).toNat_lt
  have hy := (m (off + n + 1)).toNat_lt
  rw [utilComputeChecksum_eq, utilComputeChecksum_eq, read_add, h2]
  simp only [map_append, sum_append, map_cons, map_nil, sum_cons, sum_nil, List.cons.injEq,
    and_true, ← hbyte]
  omega

/-! ### The image of a variable -/

section Image

variable (f : FileT) (slot : Slot) (m : Mem) {off : ℕ}

lemma imageBody_before (m : Mem) {a n : ℕ} (h : a + n ≤ off) : (imageBody off slot m).read a n = m.read a n := by
  unfold imageBody
  rw [read_write_before (by omega), read_write_before (by omega), read_write_before h]

lemma imageBody_size (off : ℕ) (m : Mem) : (imageBody off slot m).read off 2 = le16 (slot.size + 2) := by
  unfold imageBody
  rw [read_write_before (by omega), read_write_before le_rfl]
  exact read_write m off (le16 (slot.size + 2))

lemma imageBody_data (off : ℕ) (m : Mem) :
    (imageBody off slot m).read (off + 2) (slot.size + 2) = slot.mem.read 0 (slot.size + 2) := by
  unfold imageBody
  rw [read_write_before (by omega), Nat.add_comm 2 slot.size]
  have h := read_write (m.write off (le16 (slot.size + 2))) (off + 2) (slot.mem.read 0 (slot.size + 2))
  rwa [length_read] at h

lemma imageBody_checksum (m : Mem) (h : 69 ≤ off) :
    (imageBody off slot m).word (off + 4 + slot.size) = utilComputeChecksum (imageBody off slot m) 55 (17 + slot.size) := by
  unfold imageBody
  set m1 := (m.write off (le16 (slot.size + 2))).write (off + 2) (slot.mem.read 0 (2 + slot.size))
  rw [utilComputeChecksum_congr _ m1 (read_write_before (by omega)),
    word_of_read (read_write m1 _ _)]
  exact Nat.mod_eq_of_lt (by rw [utilComputeChecksum_eq]; exact Nat.mod_lt _ (by decide))

lemma imageHead_fields : (imageHead f slot m).read 53 2 = le16 (slot.size + 19) ∧ imageHead f slot m 59 = slot.vatType ∧
    (imageHead f slot m).read 60 8 = f.name.1 := by
  unfold imageHead
  have hname := f.name.2
  refine ⟨?_, ?_, ?_⟩
  · rw [read_write_before (by omega), read_write_before (by omega), read_write_before (by omega),
      read_write_before (by omega)]
    exact read_write _ 53 (le16 (slot.size + 19))
  · rfl
  · have h := read_write (((((((m.fill 0 fileBufferSize 0).write 0 header).write 11 comment).write 53
      (le16 (slot.size + 19))).write 55 (le16 0xD)).write 57 (le16 (slot.size + 2))).write 59 [slot.vatType]) 60 f.name.1
    rwa [hname] at h

end Image

/-! ### Reading it back -/

/-- `FILE_BUFFER` after a file has been received: cleared by `util_DownloadFile`, then filled from the start. -/
def downloaded (m : Mem) (file : Bytes) : Mem := (m.fill 0 fileBufferSize 0).write 0 file

lemma downloaded_apply (m M : Mem) {i : ℕ} (h : i < N) : downloaded m (M.read 0 N) i = M i :=
  write_read _ (Nat.zero_le i) (by omega)

lemma receiveFile_downloaded (m M : Mem) (h1 : 55 + M.word 53 ≤ N) (h2 : 74 + M.word 70 ≤ N)
    (h3 : 2 ≤ M.word 70) (h4 : M.word 70 < 65536) : receiveFile (downloaded m (M.read 0 N)) = receiveFile M := by
  have hr : ∀ a n, a + n ≤ N → (downloaded m (M.read 0 N)).read a n = M.read a n := fun a n h =>
    read_congr fun i _ hi => downloaded_apply m M (by omega)
  have hw : ∀ a, a + 2 ≤ N → (downloaded m (M.read 0 N)).word a = M.word a := fun a h =>
    word_congr (downloaded_apply m M (by omega)) (downloaded_apply m M (by omega))
  have hsize : usub (M.word 70) 2 = M.word 70 - 2 := usub_of_le (h4.trans (by decide)) h3
  unfold receiveFile
  simp only
  rw [hw 53 (by omega), hw 70 (by omega), hw (72 + M.word 70) (by omega), utilComputeChecksum_congr _ M (hr _ _ h1),
    downloaded_apply m M (by omega : 59 < N), downloaded_apply m M (by omega : 69 < N), hr 60 8 (by omega), hsize,
    hr 74 (M.word 70 - 2) (by omega)]

lemma receiveFile_data {m : Mem} {v : Received} (h : receiveFile m = some v) : v.data.length = usub (m.word 70) 2 := by
  unfold receiveFile at h
  simp only at h
  split_ifs at h
  rw [← Option.some.inj h]
  simp only [length_read]

/-! ### The round trip -/

lemma shifted_size_ne (h : n + 76 ≤ fileBufferSize) : usub ((n + 2) / 256 % 256 + 256 * (n % 256)) 2 ≠ n := by
  unfold fileBufferSize at h
  obtain ⟨hi, lo, hlo, hn⟩ : ∃ hi lo, lo < 256 ∧ n + 2 = 256 * hi + lo :=
    ⟨(n + 2) / 256, (n + 2) % 256, Nat.mod_lt _ (by decide), by omega⟩
  have hr : (2 : ℕ) ≤ uintRange ∧ 131072 ≤ uintRange := by decide
  have hdiv : (n + 2) / 256 % 256 = hi := by omega
  rw [hdiv]
  intro he
  rcases Nat.lt_or_ge (hi + 256 * (n % 256)) 2 with hx | hx
  · rw [usub_of_lt hr.1 hx] at he
    omega
  · rw [usub_of_le (by omega) hx] at he
    rcases Nat.lt_or_ge lo 2 with hl | hl
    · have hmod : n % 256 = lo + 254 := by omega
      omega
    · have hmod : n % 256 = lo - 2 := by omega
      omega

section RoundTrip

variable {f : FileT} {slot : Slot} {content : Bytes} (hsize : slot.size = content.length)
  (hfit : content.length + 76 ≤ fileBufferSize)
  (hmem : slot.mem.read 0 (slot.size + 2) = le16 slot.size ++ content)
include hsize hfit hmem

lemma receive_unarchived (ha : slot.archived = false) (m0 m : Mem) {v : Received}
    (h : receiveFile (downloaded m ((fileImage f slot m0).read 0 (76 + slot.size))) = some v) :
    v.data.length ≠ content.length := by
  have himg : fileImage f slot m0 = imageBody 69 slot (imageHead f slot m0) := by simp [fileImage, ha]
  have hdata := imageBody_data slot 69 (imageHead f slot m0)
  rw [hmem, Nat.add_comm slot.size 2, read_add] at hdata
  have h70 : imageBody 69 slot (imageHead f slot m0) 70 = UInt8.ofNat ((slot.size + 2) / 256) :=
    (List.cons.inj (List.cons.inj (imageBody_size slot 69 (imageHead f slot m0))).2).1
  have h71 : imageBody 69 slot (imageHead f slot m0) 71 = UInt8.ofNat slot.size :=
    (List.cons.inj (append_inj hdata (by simp)).1).1
  have hw : (downloaded m ((fileImage f slot m0).read 0 (76 + slot.size))).word 70 =
      (slot.size + 2) / 256 % 256 + 256 * (slot.size % 256) := by
    unfold word
    rw [downloaded_apply m _ (by omega), downloaded_apply m _ (by omega), himg, h70, h71, UInt8.toNat_ofNat',
      UInt8.toNat_ofNat']
  rw [receiveFile_data h, hw, hsize]
  exact shifted_size_ne hfit

lemma receive_archived (ha : slot.archived = true) (m0 m : Mem) :
    receiveFile (downloaded m ((fileImage f slot m0).read 0 (76 + slot.size))) =
      if (le16 slot.size ++ content).drop slot.size = [0, 0] then some ⟨f.str, slot.vatType, content, true⟩ else none := by
  have himg : fileImage f slot m0 = imageBody 70 slot ((imageHead f slot m0).write 69 [0x80]) := by simp [fileImage, ha]
  obtain ⟨h53, h59, h60⟩ := imageHead_fields f slot m0
  have hbefore : ∀ a n, a + n ≤ 69 → (fileImage f slot m0).read a n = (imageHead f slot m0).read a n := by
    intro a n h
    rw [himg, imageBody_before slot _ (by omega), read_write_before h]
  have hw53 : (fileImage f slot m0).word 53 = slot.size + 19 := by
    rw [word_of_read ((hbefore 53 2 (by omega)).trans h53)]
    exact Nat.mod_eq_of_lt (by unfold fileBufferSize at hfit; omega)
  have hw70 : (fileImage f slot m0).word 70 = slot.size + 2 := by
    rw [himg, word_of_read (imageBody_size slot 70 _)]
    exact Nat.mod_eq_of_lt (by unfold fileBufferSize at hfit; omega)
  have hflag : fileImage f slot m0 69 = 0x80 := by
    rw [himg]
    exact (List.cons.inj (imageBody_before slot ((imageHead f slot m0).write 69 [0x80]) (n := 1) le_rfl)).1
  have hdata : (fileImage f slot m0).read 72 (slot.size + 2) = le16 slot.size ++ content := by
    rw [himg, imageBody_data, hmem]
  have hcontent : (fileImage f slot m0).read 74 slot.size = content := by
    rw [Nat.add_comm, read_add] at hdata
    exact (append_inj hdata (by simp)).2
  have hlast : (fileImage f slot m0).read (55 + (17 + slot.size)) 2 = (le16 slot.size ++ content).drop slot.size := by
    rw [← hdata, read_add, drop_left' (by simp), show 55 + (17 + slot.size) = 72 + slot.size by omega]
  have hsum : (fileImage f slot m0).word (72 + (slot.size + 2)) =
      utilComputeChecksum (fileImage f slot m0) 55 (17 + slot.size) := by
    rw [himg, ← imageBody_checksum slot _ (by omega), show 72 + (slot.size + 2) = 70 + 4 + slot.size by omega]
  rw [receiveFile_downloaded m _ (by omega) (by omega) (by omega) (by unfold fileBufferSize at hfit; omega)]
  unfold receiveFile
  simp only [hw53, hw70, hsum, hflag, hbefore 60 8 (by omega), h60]
  have hsub : usub (slot.size + 2) 2 = slot.size :=
    (usub_of_le (by unfold fileBufferSize at hfit; unfold uintRange; omega) (by omega)).trans (by omega)
  have htype : fileImage f slot m0 59 = slot.vatType := by
    exact (List.cons.inj (hbefore 59 1 (by omega))).1
  rw [hsub, hcontent, htype, show slot.size + 19 = 17 + slot.size + 2 by omega]
  simp only [ne_eq, utilComputeChecksum_add_two, hlast, ite_not]
  rfl

end RoundTrip

def uploadImage (F : Fileioc V) (s : Prog V) : Bytes :=
  match utilUploadFile F (fun _ s => s) s with
  | none => []
  | some s => s.usr.fileBuffer.read 0 s.usr.txSize

/-- **Which variables survive the round trip.**  The variable under the cursor is uploaded, and the file is received as a
download: the variable that comes out has the same name, type, content and archive status exactly if it is archived and
the last two bytes of its size word and content are zero. -/
theorem round_trip_iff (F : Fileioc V) (s : Prog V) (hc : s.usr.remoteColumn = false) (slot : Slot)
    (hslot : F.openVar s.usr.vars s.usr.localEntry.str (osType s.usr.localEntry) = slot) (content : Bytes)
    (hsize : slot.size = content.length) (hfit : content.length + 76 ≤ fileBufferSize)
    (hmem : slot.mem.read 0 (slot.size + 2) = le16 slot.size ++ content) (m : Mem) :
    receiveFile (downloaded m (uploadImage F s)) =
        some ⟨s.usr.localEntry.str, slot.vatType, content, slot.archived⟩ ↔
      slot.archived = true ∧ (le16 slot.size ++ content).drop slot.size = [0, 0] := by
  have himg : uploadImage F s = (fileImage s.usr.localEntry slot s.usr.fileBuffer).read 0 (76 + slot.size) := by
    rw [show 76 + slot.size = 11 + 42 + 2 + 17 + slot.size + 4 by omega, ← hslot]
    simp [uploadImage, utilUploadFile, AppT.startUpload, hc, onApp, onUser, appendName]
  rw [himg]
  cases ha : slot.archived with
  | false =>
    constructor
    · intro h
      exact absurd rfl (receive_unarchived hsize hfit hmem ha _ m h)
    · rintro ⟨h, -⟩
      cases h
  | true =>
    rw [receive_archived hsize hfit hmem ha _ m]
    simp

def oneVar (content : Bytes) (archived : Bool) : Fileioc Unit :=
  { noVars with
    openVar := fun _ _ _ =>
      ⟨osTypePrgm, content.length, archived, Mem.write (fun _ => 0) 0 (le16 content.length ++ content)⟩ }

def onProgramA : Prog Unit := initial mainUser { vars := (), localFiles := fun _ => ⟨.prog, name8 [65]⟩ }

theorem round_trip_zeros : receiveFile (downloaded (fun _ => 0) (uploadImage (oneVar [7, 0, 0] true) onProgramA)) =
      some ⟨[65], osTypePrgm, [7, 0, 0], true⟩ :=
  (round_trip_iff (oneVar [7, 0, 0] true) onProgramA rfl _ rfl [7, 0, 0] rfl (by decide) (by decide) fun _ => 0).2
    ⟨rfl, by decide⟩

/-- **A variable that does not come back.**  Archived or not, the file of the program `A` with the content `7` fails the
check of its own checksum. -/
theorem round_trip_broken : receiveFile (downloaded (fun _ => 0) (uploadImage (oneVar [7] true) onProgramA)) = none ∧
    receiveFile (downloaded (fun _ => 0) (uploadImage (oneVar [7] false) onProgramA)) = none := by
  decide +kernel

end LwftpCe.App
