import LwftpCe.Lib.Memory

/-!
# Circular buffers

The bytes `head, head + 1, …` modulo `cap` of a memory, as a list (`contents`).  A block of a circular buffer lies in two
pieces: `room` bytes up to the end of the memory, and the rest at its beginning.  `get`, `put` and `wipe` are the block
operations in two pieces, and the lemmas say what they do to the contents.
-/

namespace LwftpCe.Lib.Ring

open List Nat Mem

def contents (m : Mem) (cap head len : ℕ) : Bytes := (List.range len).map fun i => m ((head + i) % cap)

def get (m : Mem) (room pos n : ℕ) : Bytes := m.read pos (min room n) ++ m.read 0 (n - min room n)

def put (m : Mem) (room pos : ℕ) (bs : Bytes) : Mem :=
  (m.write pos (bs.take (min room bs.length))).write 0 (bs.drop (min room bs.length))

def wipe (m : Mem) (room pos n : ℕ) : Mem := (m.fill pos (min room n) 0).fill 0 (n - min room n) 0

variable {m m' : Mem} {cap cap' head head' pos len n : ℕ} {bs : Bytes} {k : ℕ}

@[simp] lemma length_contents (m : Mem) (cap head len : ℕ) : (contents m cap head len).length = len := by simp [contents]

@[simp] lemma contents_zero (m : Mem) (cap head : ℕ) : contents m cap head 0 = [] := rfl

lemma contents_congr (h : ∀ i < len, m ((head + i) % cap) = m' ((head' + i) % cap')) :
    contents m cap head len = contents m' cap' head' len :=
  map_congr_left fun i hi => h i (mem_range.1 hi)

lemma contents_mod (m : Mem) (cap head len : ℕ) : contents m cap (head % cap) len = contents m cap head len :=
  contents_congr fun i _ => by rw [mod_add_mod]

lemma contents_add (m : Mem) (cap head a b : ℕ) :
    contents m cap head (a + b) = contents m cap head a ++ contents m cap (head + a) b := by
  unfold contents
  rw [range_add, map_append, map_map]
  congr 1
  exact map_congr_left fun i _ => by simp [Nat.add_assoc]

lemma take_contents (h : n ≤ len) : (contents m cap head len).take n = contents m cap head n := by
  obtain ⟨k, rfl⟩ := Nat.exists_eq_add_of_le h
  rw [contents_add, take_left' (length_contents ..)]

lemma drop_contents (h : n ≤ len) : (contents m cap head len).drop n = contents m cap (head + n) (len - n) := by
  obtain ⟨k, rfl⟩ := Nat.exists_eq_add_of_le h
  rw [contents_add, drop_left' (length_contents ..), Nat.add_sub_cancel_left]

lemma contents_read (h : head + len ≤ cap) : contents m cap head len = m.read head len :=
  map_congr_left fun i hi => by
    have := mem_range.1 hi
    rw [mod_eq_of_lt (by omega)]

lemma get_eq (hp : pos < cap) (hn : n ≤ cap) : get m (cap - pos) pos n = contents m cap pos n := by
  have hsplit : n = min (cap - pos) n + (n - min (cap - pos) n) := by omega
  conv_rhs => rw [hsplit, contents_add]
  rw [get, contents_read (by omega)]
  rcases Nat.le_total n (cap - pos) with hle | hle
  · simp [Nat.min_eq_right hle, Mem.read]
  · have hend : pos + min (cap - pos) n = cap := by omega
    rw [hend, ← contents_mod, mod_self, contents_read (by omega)]

lemma put_at (hp : pos < cap) (hb : bs.length ≤ cap) {i : ℕ} (hi : i < cap) :
    put m (cap - pos) pos bs ((pos + i) % cap) = (bs[i]?).getD (m ((pos + i) % cap)) := by
  unfold put
  rcases Nat.lt_or_ge (pos + i) cap with hlt | hge
  · -- before the end: the second piece ends before `pos`
    rw [mod_eq_of_lt hlt]
    have hlen : (bs.drop (min (cap - pos) bs.length)).length ≤ pos := by
      rw [length_drop]
      omega
    have hsnd : (bs.drop (min (cap - pos) bs.length))[pos + i - 0]? = none := getElem?_eq_none (by omega)
    rw [Mem.write, if_pos (Nat.zero_le _), hsnd, Option.getD_none, Mem.write, if_pos (Nat.le_add_right _ _),
      Nat.add_sub_cancel_left, getElem?_take]
    split_ifs with h
    · rfl
    · rw [getElem?_eq_none (by omega)]
  · have hmod : (pos + i) % cap = pos + i - cap := by
      rw [mod_eq_sub_mod hge, mod_eq_of_lt (by omega)]
    rw [hmod]
    have hbefore : m.write pos (bs.take (min (cap - pos) bs.length)) (pos + i - cap) = m (pos + i - cap) :=
      write_before _ (by omega)
    rw [Mem.write, if_pos (Nat.zero_le _), hbefore, getElem?_drop]
    rcases Nat.le_total bs.length (cap - pos) with hle | hle
    · rw [getElem?_eq_none (by omega), getElem?_eq_none (by omega)]
    · have hidx : min (cap - pos) bs.length + (pos + i - cap - 0) = i := by omega
      rw [hidx]

lemma contents_put (hc : 0 < cap) (h : len + bs.length ≤ cap) :
    contents (put m (cap - (head + len) % cap) ((head + len) % cap) bs) cap head (len + bs.length) =
      contents m cap head len ++ bs := by
  have hp : (head + len) % cap < cap := mod_lt _ hc
  have hat : ∀ {i : ℕ}, i < cap → put m (cap - (head + len) % cap) ((head + len) % cap) bs ((head + len + i) % cap) =
      (bs[i]?).getD (m ((head + len + i) % cap)) := by
    intro i hi
    have := put_at (m := m) hp (by omega : bs.length ≤ cap) hi
    rwa [mod_add_mod] at this
  rw [contents_add]
  congr 1
  · -- the old contents lie at the distances from `cap - len` on
    refine contents_congr fun i hi => ?_
    have hpos : (head + i) % cap = (head + len + (cap - len + i)) % cap := by
      have : head + len + (cap - len + i) = head + i + cap := by omega
      rw [this, add_mod_right]
    rw [hpos, hat (by omega), getElem?_eq_none (by omega), Option.getD_none]
  · refine ext_getElem (by simp) fun i hi _ => ?_
    have hlt : i < bs.length := by simpa using hi
    simp [contents, hat (by omega : i < cap), hlt]

lemma contents_wipe (hp : head < cap) (h : n + len ≤ cap) :
    contents (wipe m (cap - head) head n) cap (head + n) len = contents m cap (head + n) len := by
  refine contents_congr fun i hi => ?_
  unfold wipe fill
  rcases Nat.lt_or_ge (head + n + i) cap with hlt | hge
  · rw [mod_eq_of_lt hlt, if_neg (by omega), if_neg (by omega)]
  · have hmod : (head + n + i) % cap = head + n + i - cap := by
      rw [mod_eq_sub_mod hge, mod_eq_of_lt (by omega)]
    rw [if_neg (by omega), if_neg (by omega)]

lemma put_outside (hp : pos < cap) (hb : bs.length ≤ cap) (hk : ∀ j < bs.length, k ≠ (pos + j) % cap) :
    put m (cap - pos) pos bs k = m k := by
  have hsnd : (bs.drop (min (cap - pos) bs.length)).length ≤ k := by
    by_contra hlt
    rw [length_drop] at hlt
    refine hk (cap - pos + k) (by omega) ?_
    rw [show pos + (cap - pos + k) = k + cap by omega, add_mod_right, mod_eq_of_lt (by omega)]
  have hfst : k < pos ∨ pos + (bs.take (min (cap - pos) bs.length)).length ≤ k := by
    by_contra hin
    rw [length_take] at hin
    refine hk (k - pos) (by omega) ?_
    rw [Nat.add_sub_cancel' (by omega), mod_eq_of_lt (by omega)]
  unfold put
  rw [write_behind k (by omega)]
  rcases hfst with hlt | hge
  · exact write_before k hlt
  · exact write_behind k hge

lemma wipe_at (hp : pos < cap) (hn : n ≤ cap) {j : ℕ} (hj : j < n) : wipe m (cap - pos) pos n ((pos + j) % cap) = 0 := by
  unfold wipe fill
  rcases Nat.lt_or_ge (pos + j) cap with hlt | hge
  · rw [mod_eq_of_lt hlt, if_pos (c := pos ≤ pos + j ∧ _) (by omega), ite_self]
  · have hmod : (pos + j) % cap = pos + j - cap := by
      rw [mod_eq_sub_mod hge, mod_eq_of_lt (by omega)]
    rw [if_pos (by omega)]

lemma wipe_congr {room : ℕ} (h : m k = m' k) : wipe m room pos n k = wipe m' room pos n k := by
  unfold wipe fill
  rw [h]

lemma contents_copy (hp : head < cap) (hl : len ≤ cap) (hl' : len ≤ cap') :
    contents ((m'.write 0 (m.read head (min (cap - head) len))).write (min (cap - head) len)
      (m.read 0 (len - min (cap - head) len))) cap' 0 len = contents m cap head len := by
  have hwrite := write_append m' 0 (m.read head (min (cap - head) len)) (m.read 0 (len - min (cap - head) len))
  rw [Nat.zero_add, length_read] at hwrite
  rw [hwrite, contents_read (by omega), ← get_eq hp hl]
  have hlen : (m.read head (min (cap - head) len) ++ m.read 0 (len - min (cap - head) len)).length = len := by
    simp only [length_append, length_read]
    omega
  have hread := read_write m' 0 (m.read head (min (cap - head) len) ++ m.read 0 (len - min (cap - head) len))
  rw [hlen] at hread
  exact hread

end LwftpCe.Lib.Ring
