import LwftpCe.Buffer.Frame
import LwftpCe.Lib.Trace

/-!
# A ring is a queue

The bytes of a ring, from the oldest to the latest (`queue`), behave as a queue: `Serves` says what the answer to an
operation is, and what becomes of the queue, in terms of the queue alone.
-/

namespace LwftpCe.Buffer

open Lib List Function Ring MemBuffer Sys Nat

variable {σ : Type} {E : Env σ} {i : ℕ} {s t : Sys σ} {rb rb' : MemBuffer} {n : ℕ} {data : Bytes}

/-! ### The queue -/

def queue (rb : MemBuffer) : Bytes := Ring.contents rb.buf.bytes rb.cap rb.head rb.len

@[simp] lemma length_queue (rb : MemBuffer) : (queue rb).length = rb.len := length_contents ..

/-- A ring within its bounds; its block is large enough for the capacity. -/
structure IsRing (rb : MemBuffer) : Prop where
  ring : rb.flags.mallocType = false
  len_le : rb.len ≤ rb.cap
  cap_pos : 0 < rb.cap
  head_lt : rb.head < rb.cap
  cap_le : rb.cap ≤ rb.maxCap
  maxCap_lt : rb.maxCap < uintRange
  size : rb.cap ≤ rb.buf.size

lemma IsRing.cap_lt (h : IsRing rb) : rb.cap < uintRange := lt_of_le_of_lt h.cap_le h.maxCap_lt

/-- The ring has the same queue; the head has stayed or is back at the beginning. -/
structure Kept (rb rb' : MemBuffer) : Prop where
  isRing : IsRing rb'
  queue : queue rb' = queue rb
  head : rb'.head = rb.head ∨ rb'.head = 0

lemma Kept.refl (h : IsRing rb) : Kept rb rb := ⟨h, rfl, .inl rfl⟩

lemma Kept.len (h : Kept rb rb') : rb'.len = rb.len := by
  have := congrArg List.length h.queue
  simpa using this

lemma Kept.trans {rb'' : MemBuffer} (h : Kept rb rb') (h' : Kept rb' rb'') : Kept rb rb'' := by
  refine ⟨h'.isRing, h'.queue.trans h.queue, ?_⟩
  rcases h'.head with hh | hh
  · rw [hh]
    exact h.head
  · exact .inr hh

lemma Kept.of_fields (h : IsRing rb) (hf : rb'.flags = rb.flags) (hb : rb'.buf = rb.buf) (hc : rb'.cap = rb.cap)
    (hm : rb'.maxCap = rb.maxCap) (h0 : rb'.u₀ = rb.u₀) (h1 : rb'.u₁ = rb.u₁) : Kept rb rb' := by
  refine ⟨⟨?_, ?_, ?_, ?_, ?_, ?_, ?_⟩, ?_, .inl h1⟩
  · rw [hf]
    exact h.ring
  · rw [MemBuffer.len, h0, hc]
    exact h.len_le
  · rw [hc]
    exact h.cap_pos
  · rw [MemBuffer.head, h1, hc]
    exact h.head_lt
  · rw [hc, hm]
    exact h.cap_le
  · rw [hm]
    exact h.maxCap_lt
  · rw [hc, hb]
    exact h.size
  · unfold Buffer.queue MemBuffer.len MemBuffer.head
    rw [hb, hc, h0, h1]

lemma Quiet.kept (hq : Quiet i s t) (h : IsRing (s.buf i)) : Kept (s.buf i) (t.buf i) := by
  obtain ⟨level, hl⟩ := hq.self
  rw [hl]
  exact .of_fields h rfl rfl rfl rfl rfl rfl

/-! ### Reallocation -/

lemma Kept.moved (h : IsRing rb) {b : Block} {newCap : ℕ} {hold : UInt16} (hlen : rb.len ≤ newCap) (hpos : 0 < newCap)
    (hmax : newCap ≤ rb.maxCap) (hsize : b.size = newCap) (hb : contents b.bytes newCap 0 rb.len = Buffer.queue rb) :
    Kept rb { rb with buf := b, cap := newCap, u₁ := 0, shrinkHits := 0, shrinkStage := 0, shrinkHoldNext := hold } :=
  ⟨⟨h.ring, hlen, hpos, hpos, hmax, h.maxCap_lt, hsize.ge⟩, hb, .inr rfl⟩

lemma queue_copyRing (h : IsRing rb) (b : Block) {newCap : ℕ} (hlen : rb.len ≤ newCap) :
    contents (copyRing rb b).bytes newCap 0 rb.len = queue rb := by
  unfold copyRing
  split_ifs with h0
  · simp only [usub_of_le h.cap_lt h.head_lt.le]
    exact contents_copy h.head_lt h.len_le hlen
  · have : rb.len = 0 := by omega
    rw [queue, this]
    rfl

def Resized (i newCap : ℕ) (s : Sys σ) (x : Bool × Sys σ) : Prop :=
  Kept (s.buf i) (x.2.buf i) ∧ (x.1 = true → (x.2.buf i).cap = newCap)

section Resize

variable {newCap : ℕ}

lemma Kept.wiped (h : IsRing rb) (h0 : rb.head = 0) (hlen : rb.len ≤ newCap) (n : ℕ) : Kept rb (rb.onBytes (·.fill newCap n 0)) := by
  refine ⟨⟨h.ring, h.len_le, h.cap_pos, h.head_lt, h.cap_le, h.maxCap_lt, h.size⟩, ?_, .inl rfl⟩
  refine contents_congr fun k hk => ?_
  have hlt : (rb.head + k) % rb.cap < newCap := by
    rw [h0, Nat.zero_add]
    exact lt_of_le_of_lt (mod_le _ _) (lt_of_lt_of_le hk hlen)
  change (rb.buf.bytes.fill newCap n 0) ((rb.head + k) % rb.cap) = _
  rw [Mem.fill, if_neg (by omega)]

lemma resize_kept (h : IsRing (s.buf i)) (hpos : 0 < (s.buf i).len ∨ 0 < newCap) (hlt : newCap < uintRange) :
    Resized i newCap s (memBufferResize E i newCap s) := by
  have hcalled : ∀ {g} (cfg heap), (s.buf i).len ≤ newCap →
      (g = id ∨ (s.buf i).head = 0 ∧ g = (·.fill newCap ((s.buf i).cap - newCap) 0)) →
      Kept (s.buf i) ((called i cfg g heap s).buf i) := by
    intro g cfg heap hlen hg
    rw [called_buf]
    rcases hg with rfl | ⟨h0, rfl⟩
    · exact .refl h
    · exact .wiped h h0 hlen _
  have hr := resize_resizes (E := E) (i := i) newCap s
  generalize memBufferResize E i newCap s = x at hr
  cases hr with
  | stays => exact ⟨.refl h, fun he => (of_decide_eq_true he).symm⟩
  | refused => exact ⟨.refl h, by simp⟩
  | failed hlen _ _ _ hg hv =>
    refine ⟨?_, by simp⟩
    simp only [giveBack_buf]
    rcases hv with rfl | rfl
    · exact hcalled _ _ hlen hg
    · exact (hcalled _ _ hlen hg).trans ((quiet_notify i .critical _).kept (hcalled _ _ hlen hg).isRing)
  | @moved cfg g b heap hlen _ hmax _ _ hg hsize hb =>
    have hk := hcalled cfg heap hlen hg
    have hmax' : newCap ≤ (s.buf i).maxCap := by
      have hsz : sizeMax = uintRange - 1 := rfl
      omega
    have hq : contents b.bytes newCap 0 (s.buf i).len = queue (s.buf i) := by
      rcases hb with ⟨h0, hb⟩ | ⟨b0, rfl⟩
      · -- the queue is at the beginning of the old block
        rw [← hk.queue, called_buf]
        refine contents_congr fun k hk' => ?_
        have hkc : k < (s.buf i).cap := lt_of_lt_of_le hk' h.len_le
        change _ = g (s.buf i).buf.bytes (((s.buf i).head + k) % (s.buf i).cap)
        rw [h0, Nat.zero_add, mod_eq_of_lt (lt_of_lt_of_le hk' hlen), mod_eq_of_lt hkc]
        exact hb k (lt_of_lt_of_le hkc h.size) (lt_of_lt_of_le hk' hlen)
      · exact queue_copyRing h b0 hlen
    simp only [Resized, resized_buf]
    rw [called_buf] at hk ⊢
    exact ⟨hk.trans (.moved hk.isRing hlen (by omega) hmax' hsize (hq.trans hk.queue.symm)), fun _ => trivial⟩

end Resize

/-! ### Growing and shrinking -/

lemma growTarget_bounds {needed : ℕ} (hc : rb.cap < uintRange) (hn : needed < uintRange) :
    needed ≤ growTarget rb needed ∧ growTarget rb needed < uintRange := by
  refine ⟨le_max_right _ _, max_lt ?_ hn⟩
  have halign : alignStep (max rb.cap needed) rb.step < uintRange := by
    unfold alignStep
    split_ifs
    · exact max_lt hc hn
    · exact max_lt hc hn
    · exact uadd_lt _ _
  split_ifs
  · exact uadd_lt _ _
  · exact halign

def Grown (i needed : ℕ) (s : Sys σ) (x : Bool × Sys σ) : Prop :=
  Kept (s.buf i) (x.2.buf i) ∧ (x.1 = true → needed ≤ (x.2.buf i).cap)

lemma maybeGrow_grown (h : IsRing (s.buf i)) (h0 : 0 < n) (hn : n < uintRange) :
    Grown i (uadd (s.buf i).len n) s (memBufferMaybeGrow E i n s) := by
  have hq := reportUsage_quiet (E := E) i (uadd (s.buf i).len n) s
  have hsum : uadd (s.buf i).len n < uintRange := uadd_lt ..
  -- where the sum is zero, it has wrapped around
  have hpos : 0 < (s.buf i).len ∨ 0 < uadd (s.buf i).len n := by
    rcases Nat.eq_zero_or_pos (s.buf i).len with hlen | hlen
    · rw [uadd_of_lt (by omega)]
      omega
    · exact .inl hlen
  have hg := maybeGrow_growsTo (E := E) (i := i) n s
  generalize memBufferMaybeGrow E i n s = x at hg
  generalize uadd (s.buf i).len n = needed at *
  generalize reportUsage E i needed s = u at hg hq
  have hrep := hq.kept h
  have hcap : (u.buf i).cap = (s.buf i).cap := by
    obtain ⟨level, hl⟩ := hq.self
    rw [hl]
  have hnotify : ∀ {v : Sys σ}, Kept (s.buf i) (v.buf i) → Grown i needed s (false, memBufferNotifyLowmem E i .critical v) :=
    fun hk => ⟨hk.trans ((quiet_notify i .critical _).kept hk.isRing), by simp⟩
  have hlt := (growTarget_bounds h.cap_lt hsum).2
  have hres : ∀ {c}, needed ≤ c ∧ c ≤ growTarget (s.buf i) needed → Resized i c u (memBufferResize E i c u) := by
    intro c hc
    refine resize_kept hrep.isRing ?_ (by omega)
    rw [hrep.len]
    omega
  cases hg with
  | refused => exact hnotify hrep
  | stays hle => exact ⟨hrep, fun _ => by simpa only [hcap] using hle⟩
  | grown c hc hok => exact ⟨hrep.trans (hres hc).1, fun _ => ((hres hc).2 hok).symm ▸ hc.1⟩
  | failed c hc => exact hnotify (hrep.trans (hres hc).1)

lemma maybeGrow_kept (h : IsRing (s.buf i)) (h0 : 0 < n) (hsum : (s.buf i).len + n < uintRange) :
    Grown i ((s.buf i).len + n) s (memBufferMaybeGrow E i n s) := by
  have := maybeGrow_grown (E := E) h h0 (by omega)
  rwa [uadd_of_lt hsum] at this

lemma maybeShrink_kept (wrapped : Bool) (h : IsRing (s.buf i)) : Kept (s.buf i) ((memBufferMaybeShrink E i wrapped s).buf i) := by
  unfold memBufferMaybeShrink
  simp only [onBuf_self]
  split_ifs with h1 h2 h3 h4 h5 h6
  · exact .refl h
  · exact .refl h
  · exact .refl h
  · rw [onBuf_self]
    exact .of_fields h rfl rfl rfl rfl rfl rfl
  · exact .refl h
  · rw [onBuf_self]
    exact .of_fields h rfl rfl rfl rfl rfl rfl
  · -- one hit more, the new capacity, and the next stage
    have hhit : Kept (s.buf i) ((s.onBuf i fun rb => { rb with shrinkHits := rb.shrinkHits + 1 }).buf i) := by
      rw [onBuf_self]
      exact .of_fields h rfl rfl rfl rfl rfl rfl
    have hlen := h.len_le
    have hpos : 0 < max ((s.buf i).cap - (s.buf i).step) (s.buf i).len := by omega
    have hlt : max ((s.buf i).cap - (s.buf i).step) (s.buf i).len < uintRange := lt_of_le_of_lt (by omega) h.cap_lt
    have hres := (resize_kept (E := E) hhit.isRing (.inr hpos) hlt).1
    rw [onBuf_self]
    exact (hhit.trans hres).trans (.of_fields hres.isRing rfl rfl rfl rfl rfl rfl)

/-! ### Push, peek and pop -/

lemma IsRing.setRing (h : IsRing rb) (f : Mem → Mem) {head len : ℕ} (hl : len ≤ rb.cap) (hh : head < rb.cap) :
    IsRing (rb.setRing f head len) :=
  ⟨h.ring, hl, h.cap_pos, hh, h.cap_le, h.maxCap_lt, h.size⟩

lemma queue_setRing (f : Mem → Mem) (head len : ℕ) (rb : MemBuffer) :
    queue (rb.setRing f head len) = contents (f rb.buf.bytes) rb.cap head len := rfl

lemma pushBytes_queue (h : IsRing rb) (hroom : rb.len + data.length ≤ rb.cap) (hsum : rb.head + rb.len < uintRange) :
    IsRing (pushBytes data rb) ∧ queue (pushBytes data rb) = queue rb ++ data := by
  have hlt := h.cap_lt
  have hlen : uadd rb.len data.length = rb.len + data.length := uadd_of_lt (by omega)
  have htail : usub rb.cap ((rb.head + rb.len) % rb.cap) = rb.cap - (rb.head + rb.len) % rb.cap :=
    usub_of_le hlt (mod_lt _ h.cap_pos).le
  unfold pushBytes
  simp only [uadd_of_lt hsum, hlen, htail, queue_setRing]
  exact ⟨h.setRing _ hroom h.head_lt, contents_put h.cap_pos hroom⟩

lemma popBytes_queue (h : IsRing rb) (hn : n ≤ rb.len) (hsum : rb.head + n < uintRange) :
    IsRing (popBytes n rb) ∧ queue (popBytes n rb) = (queue rb).drop n := by
  have hle : rb.len ≤ rb.cap := h.len_le
  have hroom : usub rb.cap rb.head = rb.cap - rb.head := usub_of_le h.cap_lt h.head_lt.le
  unfold popBytes
  simp only [uadd_of_lt hsum, hroom, queue_setRing, contents_mod]
  refine ⟨h.setRing _ ((sub_le _ _).trans hle) (mod_lt _ h.cap_pos), ?_⟩
  rw [queue, drop_contents hn]
  split_ifs
  · exact contents_wipe h.head_lt (by omega)
  · rfl

lemma get_queue (off n : ℕ) (h : IsRing rb) (hn : off + n ≤ rb.len) :
    Ring.get rb.buf.bytes (usub rb.cap ((rb.head + off) % rb.cap)) ((rb.head + off) % rb.cap) n =
      ((queue rb).drop off).take n := by
  have hle := h.len_le
  have hpos := mod_lt (rb.head + off) h.cap_pos
  rw [usub_of_le h.cap_lt hpos.le, get_eq hpos (by omega), contents_mod, queue, drop_contents (by omega),
    take_contents (by omega)]

/-! ### Operations -/

/-- The operations on a ring; between them anything can happen elsewhere. -/
inductive RingOp (σ : Type) where
  | push (data : Bytes)
  | pop (len : ℕ)
  | peek (offset len : ℕ)
  | reserve (len : ℕ)
  | setGrow (thresholdPct step : ℕ)
  | setShrink (thresholdPct step : ℕ)
  | setMaxSize (maxCap : ℕ)
  | elsewhere (s : Sys σ)

inductive Answer where
  | flag (b : Bool)
  | bytes (l : Bytes)
  | peeked (l : Option Bytes)
  | unit

def play (E : Env σ) (i : ℕ) (s : Sys σ) : RingOp σ → Answer × Sys σ
  | .push data => (.flag (memBufferPush E i data s).1, (memBufferPush E i data s).2)
  | .pop len => (.bytes (memBufferPop E i len s).1, (memBufferPop E i len s).2)
  | .peek offset len => (.peeked (memBufferPeek (s.buf i) offset len), s)
  | .reserve len => (.flag (memBufferReserve E i len s).1, (memBufferReserve E i len s).2)
  | .setGrow pct step => (.unit, s.onBuf i (memBufferSetGrow pct step))
  | .setShrink pct step => (.unit, s.onBuf i (memBufferSetShrink pct step))
  | .setMaxSize maxCap => (.unit, s.onBuf i (memBufferSetMaxSize maxCap))
  | .elsewhere t => (.unit, { t with buf := Function.update t.buf i (s.buf i) })

def sumsFit (i : ℕ) (s : Sys σ) : RingOp σ → Bool
  | .push data => (s.buf i).len + data.length < uintRange ∧ (s.buf i).head + (s.buf i).len < uintRange
  | .pop len => (s.buf i).head + len < uintRange
  | .peek offset len => offset + len < uintRange ∧ (s.buf i).head + offset < uintRange
  | .reserve len => (s.buf i).len + len < uintRange
  | .setMaxSize maxCap => maxCap < uintRange
  | _ => true

/-- A queue of bytes: the answer to an operation, and the queue behind it.  A push may be refused, and the queue is the same
then; everything else is determined. -/
def Serves (q : Bytes) (op : RingOp σ) (a : Answer) (q' : Bytes) : Prop :=
  match op with
  | .push data => a = .flag true ∧ q' = q ++ data ∨ a = .flag false ∧ q' = q
  | .pop len => if 0 < len ∧ len ≤ q.length then a = .bytes (q.take len) ∧ q' = q.drop len else a = .bytes [] ∧ q' = q
  | .peek offset len =>
    a = .peeked (if 0 < len ∧ offset + len ≤ q.length then some ((q.drop offset).take len) else none) ∧ q' = q
  | .reserve _ => (∃ b, a = .flag b) ∧ q' = q
  | _ => a = .unit ∧ q' = q

def Served : List (RingOp σ × Answer) → Bytes → Prop
  | [], q => q = []
  | (op, a) :: h, q' => ∃ q, Served h q ∧ Serves q op a q'

def Bounded (rb : MemBuffer) : Prop := rb.len ≤ rb.cap ∧ 0 < rb.cap ∧ rb.head < rb.cap ∧ rb.cap ≤ rb.maxCap

def ServesAt (E : Env σ) (i : ℕ) (s : Sys σ) (op : RingOp σ) : Prop :=
  IsRing ((play E i s op).2.buf i) ∧ Serves (queue (s.buf i)) op (play E i s op).1 (queue ((play E i s op).2.buf i))

lemma push_serves (h : IsRing (s.buf i)) (hok : sumsFit i s (.push data)) : ServesAt E i s (.push data) := by
  simp only [sumsFit, decide_eq_true_eq] at hok
  simp only [ServesAt, play, memBufferPush, h.ring, or_false, Bool.false_eq_true]
  by_cases h0 : data = []
  · rw [if_pos h0]
    exact ⟨h, .inr ⟨rfl, rfl⟩⟩
  rw [if_neg h0]
  have hgrow := maybeGrow_kept (E := E) h (length_pos_iff.2 h0) hok.1
  generalize memBufferMaybeGrow E i data.length s = x at hgrow
  obtain ⟨ok, t⟩ := x
  have hk : Kept (s.buf i) (t.buf i) := hgrow.1
  cases ok with
  | false => exact ⟨hk.isRing, .inr ⟨rfl, hk.queue⟩⟩
  | true =>
    have hroom : (t.buf i).len + data.length ≤ (t.buf i).cap := by
      rw [hk.len]
      exact hgrow.2 rfl
    have hsum : (t.buf i).head + (t.buf i).len < uintRange := by
      have hlt := hk.isRing.cap_lt
      rw [hk.len]
      rcases hk.head with hh | hh
      · rw [hh]
        exact hok.2
      · omega
    obtain ⟨hr, hq⟩ := pushBytes_queue hk.isRing hroom hsum
    simp only [onBuf_self]
    exact ⟨hr, .inl ⟨rfl, hk.queue ▸ hq⟩⟩

lemma pop_serves (h : IsRing (s.buf i)) (hok : sumsFit i s (.pop n)) : ServesAt E i s (.pop n) := by
  simp only [sumsFit, decide_eq_true_eq] at hok
  simp only [ServesAt, play, memBufferPop, Serves, length_queue, h.ring, Bool.false_eq_true, or_false]
  by_cases h0 : n = 0 ∨ n > (s.buf i).len
  · rw [if_pos h0, if_neg (by omega)]
    exact ⟨h, rfl, rfl⟩
  rw [if_neg h0, if_pos (by omega)]
  obtain ⟨hr, hq⟩ := popBytes_queue h (by omega) hok
  have hpop : IsRing ((s.onBuf i (popBytes n)).buf i) := by
    rw [onBuf_self]
    exact hr
  -- behind the copy only a reallocation and the pressure are left
  generalize decide (uadd (s.buf i).head n ≥ (s.buf i).cap) = wrapped
  have hshrink := maybeShrink_kept (E := E) wrapped hpop
  have hclear := (quiet_maybeClear (E := E) i (memBufferMaybeShrink E i wrapped (s.onBuf i (popBytes n)))).kept hshrink.isRing
  refine ⟨hclear.isRing, ?_, ?_⟩
  · have hget := get_queue 0 n h (by omega)
    rw [Nat.add_zero, mod_eq_of_lt h.head_lt, drop_zero] at hget
    rw [hget]
  · rw [hclear.queue, hshrink.queue, onBuf_self, hq]

lemma play_serves (op : RingOp σ) (h : IsRing (s.buf i)) (hok : sumsFit i s op) : ServesAt E i s op := by
  -- a setting that the ring does not depend on
  have hset : ∀ {rb' : MemBuffer}, Kept (s.buf i) rb' → IsRing rb' ∧ Answer.unit = .unit ∧ queue rb' = queue (s.buf i) :=
    fun hk => ⟨hk.isRing, rfl, hk.queue⟩
  cases op with
  | push data => exact push_serves h hok
  | pop n => exact pop_serves h hok
  | peek offset n =>
    simp only [sumsFit, decide_eq_true_eq] at hok
    refine ⟨h, ?_, rfl⟩
    simp only [play, memBufferPeek, uadd_of_lt hok.1, uadd_of_lt hok.2, length_queue]
    by_cases h0 : n = 0 ∨ offset + n > (s.buf i).len
    · rw [if_pos h0, if_neg (by omega)]
    · rw [if_neg h0, if_pos (by omega), get_queue _ _ h (by omega)]
  | reserve n =>
    simp only [sumsFit, decide_eq_true_eq] at hok
    simp only [ServesAt, play, memBufferReserve, h.ring, Bool.false_eq_true, or_false]
    by_cases h0 : n = 0
    · rw [if_pos h0]
      exact ⟨h, ⟨_, rfl⟩, rfl⟩
    · rw [if_neg h0]
      have hk := (maybeGrow_kept (E := E) h (Nat.pos_of_ne_zero h0) hok).1
      exact ⟨hk.isRing, ⟨_, rfl⟩, hk.queue⟩
  | setGrow pct step =>
    simp only [ServesAt, play, onBuf_self, memBufferSetGrow]
    split_ifs
    · exact hset (.refl h)
    · exact hset (.of_fields h rfl rfl rfl rfl rfl rfl)
  | setShrink pct step =>
    simp only [ServesAt, play, onBuf_self, memBufferSetShrink]
    split_ifs
    · exact hset (.refl h)
    · exact hset (.of_fields h rfl rfl rfl rfl rfl rfl)
  | setMaxSize maxCap =>
    simp only [sumsFit, decide_eq_true_eq] at hok
    simp only [ServesAt, play, onBuf_self, memBufferSetMaxSize]
    have hmax : ∀ {m : ℕ}, (s.buf i).cap ≤ m → m < uintRange → Kept (s.buf i) { s.buf i with maxCap := m } := fun h1 h2 =>
      ⟨⟨h.ring, h.len_le, h.cap_pos, h.head_lt, h1, h2, h.size⟩, rfl, .inl rfl⟩
    have hcap := h.cap_lt
    split_ifs with h1 h2
    · exact hset (hmax (le_pred_of_lt hcap) (by decide))
    · exact hset (hmax le_rfl hcap)
    · exact hset (hmax (Nat.le_of_not_lt h2) hok)
  | elsewhere t =>
    simp only [ServesAt, play, update_self]
    exact hset (.refl h)

/-! ### A new ring -/

lemma create_ring {initialCap maxCap lockSize : ℕ} {flags : Flags} (hring : flags.mallocType = false)
    (hinit : initialCap < uintRange) (hmax : maxCap < uintRange) (hlock : lockSize < uintRange)
    (h : memBufferCreate E initialCap maxCap lockSize flags s = (some i, t)) : IsRing (t.buf i) ∧ queue (t.buf i) = [] := by
  obtain ⟨hpos, cfg, self, b, w, hw, hsize, ht⟩ := create_buffer h
  rw [hring] at ht
  have ht' : t.buf i = w.buf i := congrFun ht i
  rw [ht']
  -- the fields of the buffer
  generalize hrb : w.buf i = rb at hw hsize
  have hflags : rb.flags = flags := by rw [hw]; rfl
  have hbuf : rb.buf = b := by rw [hw]; rfl
  have hrcap : rb.cap = if flags.lockSize ∧ lockSize > 0 then lockSize else initialCap := by rw [hw]; rfl
  have hrmax : rb.maxCap = if maxCap ≠ sizeMax ∧ maxCap < rb.cap then rb.cap else maxCap := by
    rw [hw]
    rfl
  have hempty : rb.u₀ = 0 ∧ rb.u₁ = 0 := by rw [hw]; exact ⟨rfl, rfl⟩
  have hcap : 0 < rb.cap ∧ rb.cap < uintRange := by
    rw [hrcap]
    split_ifs with hl
    · exact ⟨hl.2, hlock⟩
    · exact ⟨hpos, hinit⟩
  have hle : rb.cap ≤ rb.maxCap ∧ rb.maxCap < uintRange := by
    rw [hrmax]
    have hsz : sizeMax = uintRange - 1 := rfl
    split_ifs with hl
    · exact ⟨le_rfl, hcap.2⟩
    · by_cases hm : maxCap = sizeMax
      · omega
      · omega
  refine ⟨⟨hflags ▸ hring, ?_, hcap.1, ?_, hle.1, hle.2, hbuf ▸ hsize⟩, ?_⟩
  · rw [len, hempty.1]
    exact Nat.zero_le _
  · rw [MemBuffer.head, hempty.2]
    exact hcap.1
  · simp only [queue, MemBuffer.len, hempty.1, contents_zero]

/-! ### Runs -/

/-- A ring with the operations so far, the latest first. -/
structure Log (σ : Type) where
  s : Sys σ
  hist : List (RingOp σ × Answer) := []

def Log.step (E : Env σ) (i : ℕ) (m : Log σ) (op : RingOp σ) : Option (Log σ) :=
  some ⟨(play E i m.s op).2, (op, (play E i m.s op).1) :: m.hist⟩

/-- **A ring is a queue.**  From its creation on, with any capacities, flags, outcomes of the allocator and of the budget,
every operation of every run is served as a queue would do, and the ring stays within its bounds. -/
theorem ring_fifo (E : Env σ) (initialCap maxCap lockSize : ℕ) (flags : Flags) (s t : Sys σ) (i : ℕ)
    (hring : flags.mallocType = false) (hinit : initialCap < uintRange) (hmax : maxCap < uintRange)
    (hlock : lockSize < uintRange) (hcreate : memBufferCreate E initialCap maxCap lockSize flags s = (some i, t))
    (ops : List (RingOp σ)) (m : Log σ)
    (h : run (guarded (fun m => sumsFit i m.s) (Log.step E i)) ⟨t, []⟩ ops = some m) :
    Served m.hist (queue (m.s.buf i)) ∧ Bounded (m.s.buf i) := by
  have hinv : IsRing (m.s.buf i) ∧ Served m.hist (queue (m.s.buf i)) := by
    refine run_inv (fun m => IsRing (m.s.buf i) ∧ Served m.hist (queue (m.s.buf i))) ?_
      (create_ring hring hinit hmax hlock hcreate) h
    rintro m op m' ⟨hr, hs⟩ hstep
    obtain ⟨hok, hstep⟩ := guarded_some.1 hstep
    cases hstep
    obtain ⟨hr', hserves⟩ := play_serves _ hr hok
    exact ⟨hr', _, hs, hserves⟩
  obtain ⟨hr, hs⟩ := hinv
  exact ⟨hs, hr.len_le, hr.cap_pos, hr.head_lt, hr.cap_le⟩

theorem ring_fifo_around : ∃ t m, memBufferCreate plainEnv 4 8 0 {} (started 0 plenty) = (some 0, t) ∧
      run (guarded (fun m => sumsFit 0 m.s) (Log.step plainEnv 0)) ⟨t, []⟩ [.push [1, 2, 3], .pop 2, .push [4, 5]] = some m ∧
      queue (m.s.buf 0) = [3, 4, 5] ∧ (m.s.buf 0).head = 2 ∧ Served m.hist (queue (m.s.buf 0)) ∧ Bounded (m.s.buf 0) :=
  ⟨_, _, rfl, rfl, by decide +kernel, by decide +kernel,
    ring_fifo plainEnv 4 8 0 {} (started 0 plenty) _ 0 rfl (by decide) (by decide) (by decide) rfl
      [.push [1, 2, 3], .pop 2, .push [4, 5]] _ rfl⟩

end LwftpCe.Buffer
