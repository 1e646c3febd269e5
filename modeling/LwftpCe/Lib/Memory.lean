import LwftpCe.Lib.CString
import Mathlib.Data.List.GetD

/-!
# Memory

A buffer at a fixed address is a function from the offsets to the bytes, without an end: what the program reads and
writes behind the buffer is read and written.  `read`, `write` and `fill` are the block operations (`memcpy`,
`memset`), `word` the little-endian 16-bit number at an offset.
-/

namespace LwftpCe.Lib

open List

def le16 (n : ℕ) : Bytes := [UInt8.ofNat n, UInt8.ofNat (n / 256)]

@[simp] lemma length_le16 (n : ℕ) : (le16 n).length = 2 := rfl

def le32 (n : ℕ) : Bytes := le16 n ++ le16 (n / 65536)

abbrev Mem := ℕ → UInt8

namespace Mem

def read (m : Mem) (a n : ℕ) : Bytes := (List.range n).map fun i => m (a + i)

def write (m : Mem) (a : ℕ) (bs : Bytes) : Mem := fun i => if a ≤ i then (bs[i - a]?).getD (m i) else m i

def fill (m : Mem) (a n : ℕ) (b : UInt8) : Mem := fun i => if a ≤ i ∧ i < a + n then b else m i

def word (m : Mem) (a : ℕ) : ℕ := (m a).toNat + 256 * (m (a + 1)).toNat

def dword (m : Mem) (a : ℕ) : ℕ := m.word a + 65536 * m.word (a + 2)

variable {m m' : Mem} {a b n k : ℕ} {bs : Bytes} {i : ℕ}

@[simp] lemma length_read (m : Mem) (a n : ℕ) : (m.read a n).length = n := by simp [read]

lemma getElem?_read (m : Mem) (a n i : ℕ) : (m.read a n)[i]? = if i < n then some (m (a + i)) else none := by
  unfold read
  rw [getElem?_map]
  split_ifs with hi
  · rw [getElem?_range hi, Option.map_some]
  · rw [getElem?_eq_none (by simpa using hi), Option.map_none]

lemma read_congr (h : ∀ i, a ≤ i → i < a + n → m i = m' i) : m.read a n = m'.read a n := by
  refine map_congr_left fun i hi => h (a + i) (by omega) ?_
  have := mem_range.1 hi
  omega

lemma read_add (m : Mem) (a n k : ℕ) : m.read a (n + k) = m.read a n ++ m.read (a + n) k := by
  unfold read
  rw [range_add, map_append]
  simp [Nat.add_assoc]

lemma write_before (i : ℕ) (h : i < a) : m.write a bs i = m i := if_neg (Nat.not_le.2 h)

lemma write_behind (i : ℕ) (h : a + bs.length ≤ i) : m.write a bs i = m i := by
  unfold write
  rw [if_pos (by omega), getElem?_eq_none (by omega), Option.getD_none]

lemma read_write_before (h : b + n ≤ a) : (m.write a bs).read b n = m.read b n :=
  read_congr fun i _ hi => write_before i (by omega)

lemma read_write (m : Mem) (a : ℕ) (bs : Bytes) : (m.write a bs).read a bs.length = bs := by
  unfold read write
  refine ext_getElem (by simp) fun i h _ => ?_
  have hi : i < bs.length := by simpa using h
  simp [hi]

lemma write_append (m : Mem) (a : ℕ) (bs cs : Bytes) : (m.write a bs).write (a + bs.length) cs = m.write a (bs ++ cs) := by
  funext i
  unfold write
  rcases Nat.lt_or_ge i (a + bs.length) with hlt | hge
  · rw [if_neg (Nat.not_le.2 hlt)]
    rcases Nat.lt_or_ge i a with ha | ha
    · rw [if_neg (Nat.not_le.2 ha), if_neg (Nat.not_le.2 ha)]
    · rw [if_pos ha, if_pos ha, getElem?_append_left (by omega)]
  · have ha : a ≤ i := by omega
    have hnone : bs[i - a]? = none := getElem?_eq_none (by omega)
    rw [if_pos hge, if_pos ha, if_pos ha, hnone, Option.getD_none, getElem?_append_right (by omega), Nat.sub_sub]

lemma read_write_inside (m : Mem) (a : ℕ) (bs : Bytes) (h : k + bs.length ≤ n) : (m.write (a + k) bs).read a n =
    (m.read a n).take k ++ (bs ++ (m.read a n).drop (k + bs.length)) := by
  obtain ⟨c, rfl⟩ := Nat.exists_eq_add_of_le h
  have hbehind : (m.write (a + k) bs).read (a + (k + bs.length)) c = m.read (a + (k + bs.length)) c :=
    read_congr fun i hi _ => write_behind i (by omega)
  rw [read_add, hbehind, read_add m a (k + bs.length) c, read_add, read_write_before le_rfl, read_write, drop_left' (by simp),
    read_add, append_assoc, append_assoc, take_left' (by simp)]

lemma fill_eq_write (m : Mem) (a n : ℕ) (b : UInt8) : m.fill a n b = m.write a (replicate n b) := by
  funext i
  unfold fill write
  rw [getElem?_replicate]
  by_cases ha : a ≤ i
  · by_cases hk : i < a + n
    · rw [if_pos ⟨ha, hk⟩, if_pos ha, if_pos (by omega), Option.getD_some]
    · rw [if_neg (by omega), if_pos ha, if_neg (by omega), Option.getD_none]
  · rw [if_neg (by omega), if_neg ha]

lemma write_read (m : Mem) (h : a ≤ i) (hi : i < a + n) : m.write a (m'.read a n) i = m' i := by
  unfold write read
  have hlt : i - a < n := by omega
  rw [if_pos h, getElem?_map, getElem?_range hlt, Option.map_some, Option.getD_some, Nat.add_sub_cancel' h]

lemma word_congr (h0 : m a = m' a) (h1 : m (a + 1) = m' (a + 1)) : m.word a = m'.word a := by
  unfold word
  rw [h0, h1]

lemma word_of_read (h : m.read a 2 = le16 n) : m.word a = n % 65536 := by
  have h0 : m a = UInt8.ofNat n := (List.cons.inj h).1
  have h1 : m (a + 1) = UInt8.ofNat (n / 256) := (List.cons.inj (List.cons.inj h).2).1
  unfold word
  rw [h0, h1, UInt8.toNat_ofNat', UInt8.toNat_ofNat']
  omega

lemma read_append (bs cs : Bytes) (h : m.read a n = bs ++ cs) : m.read a bs.length = bs ∧ m.read (a + bs.length) cs.length = cs := by
  have hn : n = bs.length + cs.length := by simpa using congrArg List.length h
  rw [hn, read_add] at h
  exact append_inj h (length_read ..)

lemma read_part (h : m.read a n = bs) (hk : b + k ≤ n) : m.read (a + b) k = (bs.drop b).take k := by
  obtain ⟨c, rfl⟩ := Nat.exists_eq_add_of_le hk
  rw [read_add, read_add] at h
  rw [← h, append_assoc, drop_left' (length_read ..), take_left' (length_read ..)]

lemma read_sub (h : m.read a n = m'.read a n) (hb : a ≤ b) (hk : b + k ≤ a + n) : m.read b k = m'.read b k := by
  refine read_congr fun i hi hlt => ?_
  have hlt' : i - a < n := by omega
  have := congrArg (fun l : Bytes => l[i - a]?) h
  simpa [read, hlt', show a + (i - a) = i by omega] using this

lemma dword_of_read (h : m.read a 4 = le32 n) : m.dword a = n % 2 ^ 32 := by
  obtain ⟨h0, h1⟩ := read_append (le16 n) (le16 (n / 65536)) h
  have h1' : m.word (a + 2) = n / 65536 % 65536 := word_of_read h1
  rw [dword, word_of_read h0]
  omega

def xorBlock (m : Mem) (a b n : ℕ) : Mem := (List.range n).foldl (fun m i => m.write (a + i) [m (a + i) ^^^ m (b + i)]) m

lemma xorBlock_succ (m : Mem) (a b n : ℕ) : m.xorBlock a b (n + 1) =
    (m.xorBlock a b n).write (a + n) [m.xorBlock a b n (a + n) ^^^ m.xorBlock a b n (b + n)] := by
  rw [xorBlock, range_succ, foldl_append]
  rfl

lemma xorBlock_frame (i : ℕ) (h : i < a ∨ a + n ≤ i) : m.xorBlock a b n i = m i := by
  induction n with
  | zero => rfl
  | succ n ih =>
    rw [xorBlock_succ]
    rcases h with h | h
    · rw [write_before i (by omega), ih (.inl h)]
    · rw [write_behind i (by simp only [length_singleton]; omega), ih (.inr (by omega))]

lemma xorBlock_apply (hb : a + n ≤ b) (hi : i < n) : m.xorBlock a b n (a + i) = m (a + i) ^^^ m (b + i) := by
  induction n with
  | zero => omega
  | succ n ih =>
    rw [xorBlock_succ]
    rcases Nat.lt_or_ge i n with hlt | hge
    · rw [write_before (a + i) (by omega), ih (by omega) hlt]
    · obtain rfl : i = n := by omega
      rw [write, if_pos (Nat.le_refl _), Nat.sub_self, getElem?_cons_zero, Option.getD_some, xorBlock_frame _ (.inr (Nat.le_refl _)),
        xorBlock_frame _ (.inr (by omega))]

def ofBytes (l : Bytes) : Mem := fun i => l.getD i 0

lemma read_ofBytes {l : Bytes} (h : a + n ≤ l.length) : (ofBytes l).read a n = (l.drop a).take n := by
  refine ext_getElem (by simp; omega) fun i hi _ => ?_
  have hlt : a + i < l.length := by
    have : i < n := by simpa using hi
    omega
  simp [read, ofBytes, hlt]

lemma write_fill_zero (m : Mem) {N : ℕ} (h : i < N) : (m.fill 0 N 0).write 0 bs i = ofBytes bs i := by
  unfold write fill ofBytes
  rw [if_pos (Nat.zero_le i), if_pos ⟨Nat.zero_le i, by omega⟩, getD_eq_getElem?_getD, Nat.sub_zero]

end Mem

end LwftpCe.Lib
