import LwftpCe.Lib.Ring

/-!
# The ring of received handshake bytes

The ring of `altcp_tls_ce.c`: `tls_ring_write` appends the bytes of a pbuf, `tls_ring_peek` and `tls_ring_ptr` give access
to the first bytes, and `tls_ring_discard` removes them.  To the outside the ring is a string with a bound on its length
(`contents`).
-/

namespace LwftpCe.Tls

open Lib List

/-- `rx_ring`, `rx_ring_size`, `rx_ring_head` and `rx_ring_len`. -/
structure RxRing where
  mem : Mem
  size : ℕ
  head : ℕ
  len : ℕ
  head_lt : head < size
  len_le : len ≤ size

namespace RxRing

variable (r : RxRing)

def contents : Bytes := Ring.contents r.mem r.size r.head r.len

def empty (mem : Mem) (size : ℕ) (h : 0 < size) : RxRing := ⟨mem, size, 0, 0, h, Nat.zero_le _⟩

def tlsRingSpace : ℕ := r.size - r.len

def tlsRingWrite (data : Bytes) : Option RxRing :=
  if h : data.length > r.tlsRingSpace then none
  else
    let tail := (r.head + r.len) % r.size
    some { r with
      mem := Ring.put r.mem (r.size - tail) tail data
      len := r.len + data.length
      len_le := by
        have := r.len_le
        unfold tlsRingSpace at h
        omega }

def tlsRingWritePbuf : RxRing → List Bytes → Option RxRing
  | r, [] => some r
  | r, q :: p => (r.tlsRingWrite q).bind fun r => tlsRingWritePbuf r p

def tlsRingPeek (offset n : ℕ) : Option Bytes :=
  if offset + n > r.len then none
  else
    let pos := (r.head + offset) % r.size
    some (Ring.get r.mem (r.size - pos) pos n)

def tlsRingPtr (offset n : ℕ) : Option ℕ :=
  if offset + n > r.len then none
  else
    let pos := (r.head + offset) % r.size
    if pos + n ≤ r.size then some pos else none

def tlsRingDiscard (n : ℕ) : RxRing :=
  { r with
    head := (r.head + n) % r.size
    len := r.len - n
    head_lt := Nat.mod_lt _ (Nat.zero_lt_of_lt r.head_lt)
    len_le := le_trans (Nat.sub_le ..) r.len_le }

def recordMem (heap : Mem) (n : ℕ) : Mem :=
  match r.tlsRingPtr 0 n with
  | some pos => fun i => r.mem (pos + i)
  | none => heap.write 0 ((r.tlsRingPeek 0 n).getD [])

/-! ### The ring as a string -/

variable {r} {n : ℕ} {data : Bytes}

@[simp] lemma length_contents : r.contents.length = r.len := Ring.length_contents ..

lemma tlsRingWrite_some (h : r.len + data.length ≤ r.size) :
    ∃ r', r.tlsRingWrite data = some r' ∧ r'.contents = r.contents ++ data ∧ r'.size = r.size := by
  have hroom : ¬ data.length > r.tlsRingSpace := by
    unfold tlsRingSpace
    omega
  refine ⟨_, dif_neg hroom, ?_, rfl⟩
  exact Ring.contents_put (Nat.zero_lt_of_lt r.head_lt) h

lemma tlsRingWrite_none (h : r.size < r.len + data.length) : r.tlsRingWrite data = none := by
  have hle := r.len_le
  refine dif_pos ?_
  unfold tlsRingSpace
  omega

lemma tlsRingWritePbuf_cases (p : List Bytes) : ∀ r : RxRing, (r.size < r.len + p.flatten.length ∧ r.tlsRingWritePbuf p = none) ∨
      ∃ r', r.tlsRingWritePbuf p = some r' ∧ r'.contents = r.contents ++ p.flatten ∧ r'.size = r.size ∧
        r.len + p.flatten.length ≤ r.size := by
  induction p with
  | nil =>
    intro r
    exact .inr ⟨r, rfl, by simp, rfl, r.len_le⟩
  | cons q p ih =>
    intro r
    unfold tlsRingWritePbuf
    rw [flatten_cons, length_append]
    by_cases hq : r.len + q.length ≤ r.size
    · obtain ⟨m, hm, hcont, hsize⟩ := tlsRingWrite_some hq
      have hlen : m.len = r.len + q.length := by
        rw [← length_contents, hcont, length_append, length_contents]
      rw [hm]
      rcases ih m with ⟨hlt, hnone⟩ | ⟨r', hr', hcont', hsize', hle⟩
      · exact .inl ⟨by omega, hnone⟩
      · refine .inr ⟨r', hr', ?_, hsize'.trans hsize, by omega⟩
        rw [hcont', hcont, append_assoc]
    · rw [tlsRingWrite_none (by omega)]
      exact .inl ⟨by omega, rfl⟩

lemma tlsRingPeek_eq (h : n ≤ r.len) : r.tlsRingPeek 0 n = some (r.contents.take n) := by
  have hle := r.len_le
  unfold tlsRingPeek contents
  rw [if_neg (by omega)]
  dsimp only
  rw [Nat.add_zero, Nat.mod_eq_of_lt r.head_lt, Ring.get_eq r.head_lt (by omega), Ring.take_contents h]

end RxRing

end LwftpCe.Tls
