import LwftpCe.Lib.BigEndian
import LwftpCe.Lib.Memory
import LwftpCe.Lib.Uint

/-!
# The decoder of ASN.1

`asn1.c`: `tls_asn1_decoder_init` and `tls_asn1_decode_next`.  A pointer is an address of the 24-bit memory `m`.  One
`pass` is the code from `restart:` to the next `goto restart` or `return`; the call `tlsAsn1DecodeNext` is a loop over the
passes, with fuel, since nothing in the source bounds it.  Each pass notes the addresses that it reads through
`asn1_current` and the indices of `node[]` that it uses.
-/

namespace LwftpCe.Tls.Asn1

open Lib List Function Nat

variable {m : Mem} {a p : ℕ}

/-! ### Tags -/

def asn1Integer : UInt8 := 2
def asn1Null : UInt8 := 5

def tlsAsn1Getform (tag : UInt8) : Bool := tag &&& 0x20 ≠ 0

/-! ### The decoder -/

inductive ParseMode
  | asn1Match | asn1Seek
deriving DecidableEq

structure Schema where
  tag : UInt8
  depth : ℕ
  optional : Bool
  allowNull : Bool
  output : Bool
  mode : ParseMode
  rawOutput : Bool
deriving DecidableEq

structure Asn1Node where
  start : ℕ
  next : ℕ
deriving DecidableEq

def asn1MaxDepth : ℕ := 16

/-- `struct tls_asn1_decoder_context`.  `node i` for `i` from `asn1MaxDepth` on is what lies in memory behind the array. -/
structure DecoderContext where
  /-- a `uint8_t` -/
  depth : ℕ
  node : ℕ → Asn1Node
  /-- no field of the source: what `node[i]` was set to when its element was opened -/
  opened : ℕ → Asn1Node

def tlsAsn1DecoderInit (ctx : DecoderContext) (data : Option ℕ) (len : ℕ) : Option DecoderContext :=
  match data with
  | none => none
  | some data =>
    if len = 0 then none
    else
      let cleared := fun i => if i < asn1MaxDepth then ⟨0, 0⟩ else ctx.node i
      some ⟨0, Function.update cleared 0 ⟨data, uadd data len⟩, fun _ => ⟨data, uadd data len⟩⟩

/-- What a call stores through its pointers; `NULL` in `*data` is `none`. -/
structure Asn1Out where
  tag : UInt8
  data : Option ℕ
  len : ℕ
  depth : ℕ
deriving DecidableEq

inductive Outcome
  | ret (ok : Bool) (ctx : DecoderContext) (out : Option Asn1Out)
  | restart (ctx : DecoderContext)

structure Pass where
  outcome : Outcome
  reads : List ℕ
  nodes : List ℕ

/-- `while(*asn1_current == 0) asn1_current++`: the addresses that are read, and the pointer behind it. -/
def skipZeros (m : Mem) : ℕ → ℕ → Option (List ℕ × ℕ)
  | 0, _ => none
  | fuel + 1, p => if m p = 0 then (skipZeros m fuel (uadd p 1)).map fun r => (p :: r.1, r.2) else some ([p], p)

/-- `size_len`, by the second byte of an element: the number of the bytes of its length, if they are not in this byte. -/
def sizeLen (byte2nd : UInt8) : ℕ := if byte2nd &&& 0x80 ≠ 0 then (byte2nd &&& 0x7f).toNat else 0

def thisLen (m : Mem) (p : ℕ) : ℕ :=
  if m p &&& 0x80 ≠ 0 then beNat (m.read (uadd p 1) (sizeLen (m p))) else (m p).toNat

inductive Verdict
  | skipChecks | seekNext | mismatch | absent
deriving DecidableEq

def checkSchema (schema : Option Schema) (tag : UInt8) (depth : ℕ) : Verdict :=
  match schema with
  | none => .skipChecks
  | some s =>
    if s.tag ≠ tag ∨ s.depth ≠ depth then
      if s.allowNull ∧ tag = asn1Null ∧ s.depth = depth then .skipChecks
      else if s.mode = .asn1Seek then .seekNext
      else if s.optional then .absent
      else .mismatch
    else .skipChecks

def outputOf (schema : Option Schema) (tag : UInt8) (tagStart cur len depth : ℕ) : Option Asn1Out :=
  match schema with
  | none => some ⟨tag, some cur, len, depth⟩
  | some s =>
    if s.output then
      if s.rawOutput then some ⟨tag, some tagStart, uadd (usub cur tagStart) len, depth⟩ else some ⟨tag, some cur, len, depth⟩
    else none

def DecoderContext.past (ctx : DecoderContext) (a : ℕ) : DecoderContext :=
  ⟨ctx.depth, Function.update ctx.node ctx.depth ⟨a, (ctx.node ctx.depth).next⟩, ctx.opened⟩

def DecoderContext.enter (ctx : DecoderContext) (nd : Asn1Node) : DecoderContext :=
  let depth := (ctx.depth + 1) % 256
  ⟨depth, Function.update ctx.node depth nd, Function.update ctx.opened depth nd⟩

def DecoderContext.advance (ctx : DecoderContext) (tag : UInt8) (cur len : ℕ) : DecoderContext :=
  if tlsAsn1Getform tag then (ctx.past (uadd cur len)).enter ⟨cur, uadd cur len⟩ else ctx.past (uadd cur len)

def DecoderContext.advanced (ctx : DecoderContext) (tag : UInt8) : List ℕ :=
  if tlsAsn1Getform tag then [ctx.depth, (ctx.depth + 1) % 256] else [ctx.depth]

def pass (m : Mem) (schema : Option Schema) (ctx : DecoderContext) (tagStart : ℕ) : Pass :=
  if asn1MaxDepth ≤ ctx.depth then ⟨.ret false ctx none, [], [ctx.depth]⟩
  else
    let thisTag := m tagStart
    let cur := uadd tagStart 1
    if (ctx.node ctx.depth).next < cur then
      let popped := { ctx with depth := (ctx.depth + 255) % 256 }
      ⟨if popped.depth = 0 then .ret false popped none else .restart popped, [tagStart], [ctx.depth]⟩
    else
      let n := sizeLen (m cur)
      if 3 < n then ⟨.ret false ctx none, [tagStart, cur], [ctx.depth]⟩
      else
        let len := thisLen m cur
        let reads := [tagStart, cur] ++ (List.range n).map fun i => uadd cur 1 + i
        let cur := uadd (uadd cur 1) n
        match checkSchema schema thisTag ctx.depth with
        | .skipChecks =>
          ⟨.ret true (ctx.advance thisTag cur len) (outputOf schema thisTag tagStart cur len ctx.depth), reads, ctx.advanced thisTag⟩
        | .seekNext => ⟨.restart (ctx.advance thisTag cur len), reads, ctx.advanced thisTag⟩
        | .mismatch => ⟨.ret false ctx none, reads, [ctx.depth]⟩
        | .absent => ⟨.ret true ctx (some ⟨0, none, 0, 255⟩), reads, [ctx.depth]⟩

structure Asn1Call where
  ok : Bool
  ctx : DecoderContext
  out : Option Asn1Out
  reads : List ℕ
  nodes : List ℕ

def tlsAsn1DecodeNext (m : Mem) (schema : Option Schema) : ℕ → DecoderContext → Option Asn1Call
  | 0, _ => none
  | fuel + 1, ctx =>
    match skipZeros m (fuel + 1) (ctx.node ctx.depth).start with
    | none => none
    | some (zeros, p) =>
      let s := pass m schema ctx p
      match s.outcome with
      | .ret ok ctx' out => some ⟨ok, ctx', out, zeros ++ s.reads, s.nodes⟩
      | .restart ctx' =>
        (tlsAsn1DecodeNext m schema fuel ctx').map fun r => { r with reads := zeros ++ s.reads ++ r.reads, nodes := s.nodes ++ r.nodes }

def decodeCalls (m : Mem) (fuel : ℕ) : DecoderContext → List (Option Schema) → Option (List Asn1Call)
  | _, [] => some []
  | ctx, s :: ss =>
    match tlsAsn1DecodeNext m s fuel ctx with
    | none => none
    | some r => (decodeCalls m fuel r.ctx ss).map (r :: ·)

/-! ### Leading zeros -/

def FirstAt (m : Mem) (a p : ℕ) : Prop := a ≤ p ∧ m p ≠ 0 ∧ ∀ q, a ≤ q → q < p → m q = 0

lemma FirstAt.here (h : m a ≠ 0) : FirstAt m a a := ⟨Nat.le_refl a, h, fun q hq hlt => by omega⟩

lemma FirstAt.unique {p' : ℕ} (h : FirstAt m a p) (h' : FirstAt m a p') : p = p' := by
  obtain ⟨hle, hne, hz⟩ := h
  obtain ⟨hle', hne', hz'⟩ := h'
  rcases Nat.lt_trichotomy p p' with hlt | heq | hlt
  · exact absurd (hz' p hle hlt) hne
  · exact heq
  · exact absurd (hz p' hle' hlt) hne'

lemma skipZeros_of_firstAt {fuel : ℕ} (h : FirstAt m a p) (hp : p < uintRange) (hfuel : p - a < fuel) :
    skipZeros m fuel a = some (range' a (p + 1 - a), p) := by
  induction fuel generalizing a with
  | zero => omega
  | succ fuel ih =>
    obtain ⟨hle, hne, hz⟩ := h
    unfold skipZeros
    rcases Nat.eq_or_lt_of_le hle with rfl | hlt
    · rw [if_neg hne, Nat.add_sub_cancel_left]
      rfl
    · have hnext : uadd a 1 = a + 1 := uadd_of_lt (by omega)
      have hlen : p + 1 - a = (p + 1 - (a + 1)) + 1 := by omega
      rw [if_pos (hz a (Nat.le_refl a) hlt), hnext, ih ⟨hlt, hne, fun q hq => hz q (by omega)⟩ (by omega), Option.map_some,
        hlen, range'_succ]

/-! ### Elements in their place -/

/-- The decoder is at an element that lies in the enclosing one, or behind the last element of one that is itself enclosed: the
next byte that is not zero is a byte of the input, which ends at `hi`. -/
def InPlace (m : Mem) (hi : ℕ) (ctx : DecoderContext) : Prop :=
  ∃ p < hi, FirstAt m (ctx.node ctx.depth).start p ∧
    if (ctx.node ctx.depth).next ≤ p then 0 < ctx.depth
    else
      p + 1 < (ctx.node ctx.depth).next ∧
      (sizeLen (m (p + 1)) ≤ 3 →
        p + 2 + sizeLen (m (p + 1)) + thisLen m (p + 1) ≤ (ctx.node ctx.depth).next ∧
        (tlsAsn1Getform (m p) = true → ctx.depth + 1 < asn1MaxDepth))

def Restarts (m : Mem) (schema : Option Schema) (ctx ctx' : DecoderContext) : Prop :=
  ∃ p, FirstAt m (ctx.node ctx.depth).start p ∧ (pass m schema ctx p).outcome = .restart ctx'

def CallInPlace (m : Mem) (hi : ℕ) (schema : Option Schema) (ctx : DecoderContext) : Prop :=
  ∀ ctx', Relation.ReflTransGen (Restarts m schema) ctx ctx' → InPlace m hi ctx'

def CallsInPlace (m : Mem) (hi : ℕ) : DecoderContext → List (Option Schema) → Prop
  | _, [] => True
  | ctx, s :: ss =>
    CallInPlace m hi s ctx ∧ ∀ fuel r, tlsAsn1DecodeNext m s fuel ctx = some r → CallsInPlace m hi r.ctx ss

def Left (opened nd : Asn1Node) : Prop := opened.start ≤ nd.start ∧ nd.start ≤ nd.next ∧ nd.next = opened.next

/-- The open elements, one in the other: each ends where the rest of its parent begins. -/
structure Nested (data n : ℕ) (ctx : DecoderContext) : Prop where
  depth_lt : ctx.depth < asn1MaxDepth
  opened_zero : ctx.opened 0 = ⟨data, data + n⟩
  data_le : ∀ i ≤ ctx.depth, data ≤ (ctx.opened i).start
  left : ∀ i ≤ ctx.depth, Left (ctx.opened i) (ctx.node i)
  chain : ∀ i < ctx.depth, (ctx.node (i + 1)).next = (ctx.node i).start

namespace Nested

variable {data n : ℕ} {ctx : DecoderContext}

lemma of_init {ctx0 : DecoderContext} (hfit : data + n < uintRange) (h : tlsAsn1DecoderInit ctx0 (some data) n = some ctx) :
    Nested data n ctx := by
  unfold tlsAsn1DecoderInit at h
  simp only at h
  split_ifs at h with hn
  rw [uadd_of_lt hfit] at h
  cases h
  refine ⟨Nat.two_pow_pos 4, rfl, fun i _ => Nat.le_refl _, ?_, fun i hi => absurd hi (Nat.not_lt_zero i)⟩
  intro i hi
  obtain rfl := le_zero.1 hi
  exact ⟨Nat.le_refl _, Nat.le_add_right .., rfl⟩

variable (h : Nested data n ctx)

include h

lemma next_le : ∀ i ≤ ctx.depth, (ctx.node i).next ≤ data + n := by
  intro i
  induction i with
  | zero =>
    intro hi
    rw [(h.left 0 hi).2.2, h.opened_zero]
  | succ i ih =>
    intro hi
    rw [h.chain i hi]
    exact (h.left i (by omega)).2.1.trans (ih (by omega))

lemma data_le_start : data ≤ (ctx.node ctx.depth).start :=
  (h.data_le _ (Nat.le_refl _)).trans (h.left _ (Nat.le_refl _)).1

lemma pop {d : ℕ} (hd : d ≤ ctx.depth) : Nested data n { ctx with depth := d } where
  depth_lt := Nat.lt_of_le_of_lt hd h.depth_lt
  opened_zero := h.opened_zero
  data_le i hi := h.data_le i (Nat.le_trans hi hd)
  left i hi := h.left i (Nat.le_trans hi hd)
  chain i hi := h.chain i (Nat.lt_of_lt_of_le hi hd)

lemma past {a : ℕ} (ha : (ctx.node ctx.depth).start ≤ a) (hle : a ≤ (ctx.node ctx.depth).next) :
    Nested data n (ctx.past a) := by
  refine ⟨h.depth_lt, h.opened_zero, h.data_le, ?_, ?_⟩
  all_goals
    unfold DecoderContext.past
    dsimp only
    intro i hi
  · rcases Nat.eq_or_lt_of_le hi with rfl | hlt
    · obtain ⟨h1, -, h3⟩ := h.left _ hi
      rw [update_self]
      exact ⟨h1.trans ha, hle, h3⟩
    · rw [update_of_ne (Nat.ne_of_lt hlt)]
      exact h.left i hi
  · rw [update_of_ne (Nat.ne_of_lt hi)]
    rcases Nat.eq_or_lt_of_le hi with heq | hlt
    · rw [← h.chain i hi, show i + 1 = ctx.depth from heq, update_self]
    · rw [update_of_ne (Nat.ne_of_lt hlt)]
      exact h.chain i hi

lemma enter {nd : Asn1Node} (hdeep : ctx.depth + 1 < asn1MaxDepth) (hstart : data ≤ nd.start)
    (hle : nd.start ≤ nd.next) (hnext : nd.next = (ctx.node ctx.depth).start) : Nested data n (ctx.enter nd) := by
  have hd : (ctx.depth + 1) % 256 = ctx.depth + 1 := mod_eq_of_lt (by unfold asn1MaxDepth at hdeep; omega)
  unfold DecoderContext.enter
  rw [hd]
  refine ⟨hdeep, ?_, ?_, ?_, ?_⟩
  · exact h.opened_zero
  all_goals
    intro i hi
    dsimp only at hi ⊢
  · rcases of_le_succ hi with hi | rfl
    · rw [update_of_ne (by omega)]
      exact h.data_le i hi
    · rwa [update_self]
  · rcases of_le_succ hi with hi | rfl
    · rw [update_of_ne (by omega), update_of_ne (by omega)]
      exact h.left i hi
    · rw [update_self, update_self]
      exact ⟨Nat.le_refl _, hle, rfl⟩
  · rw [update_of_ne (Nat.ne_of_lt hi)]
    rcases Nat.eq_or_lt_of_le (le_of_lt_succ hi) with rfl | hlt
    · rwa [update_self]
    · rw [update_of_ne (by omega)]
      exact h.chain i hlt

lemma advance (hfit : data + n < uintRange) {tag : UInt8} {cur len : ℕ}
    (hcur : (ctx.node ctx.depth).start ≤ cur) (hlen : cur + len ≤ (ctx.node ctx.depth).next)
    (hdeep : tlsAsn1Getform tag = true → ctx.depth + 1 < asn1MaxDepth) : Nested data n (ctx.advance tag cur len) := by
  have hnext := h.next_le ctx.depth (Nat.le_refl _)
  have hend : uadd cur len = cur + len := uadd_of_lt (by omega)
  have hpast : Nested data n (ctx.past (cur + len)) := h.past (by omega) hlen
  unfold DecoderContext.advance
  rw [hend]
  split_ifs with hform
  · refine hpast.enter (hdeep hform) (h.data_le_start.trans hcur) (Nat.le_add_right ..) ?_
    simp only [DecoderContext.past, update_self]
  · exact hpast

end Nested

/-! ### A pass in its place -/

def InInput (data n : ℕ) (as : List ℕ) : Prop := ∀ a ∈ as, data ≤ a ∧ a < data + n

def InArray (is : List ℕ) : Prop := ∀ i ∈ is, i < asn1MaxDepth

def Enclosed (data n : ℕ) (ctx : DecoderContext) (out : Option Asn1Out) : Prop :=
  ∀ o ∈ out, ∀ a ∈ o.data,
    (data ≤ a ∧ a + o.len ≤ data + n) ∧ (ctx.opened o.depth).start ≤ a ∧ a + o.len ≤ (ctx.opened o.depth).next

def measure (hi : ℕ) (ctx : DecoderContext) : ℕ := (hi - (ctx.node ctx.depth).start) * 17 + ctx.depth

def SafeEnd (data n : ℕ) (ctx : DecoderContext) : Outcome → Prop
  | .ret _ ctx' out => Nested data n ctx' ∧ Enclosed data n ctx' out
  | .restart ctx' => Nested data n ctx' ∧ measure (data + n) ctx' < measure (data + n) ctx

section Pass

variable {m : Mem} {data n : ℕ} {ctx : DecoderContext} {schema : Option Schema} {p : ℕ} {tag : UInt8} {cur len : ℕ}

lemma opened_advance (ctx : DecoderContext) (tag : UInt8) (cur len : ℕ) :
    (ctx.advance tag cur len).opened ctx.depth = ctx.opened ctx.depth := by
  have hd : ctx.depth ≠ (ctx.depth + 1) % 256 := by omega
  unfold DecoderContext.advance DecoderContext.enter DecoderContext.past
  split_ifs
  · exact update_of_ne hd ..
  · rfl

lemma measure_advance {hi : ℕ} (hlen : uadd cur len = cur + len)
    (hcur : (ctx.node ctx.depth).start < cur) (hhi : (ctx.node ctx.depth).start < hi) :
    measure hi (ctx.advance tag cur len) < measure hi ctx := by
  unfold measure DecoderContext.advance DecoderContext.enter DecoderContext.past
  split_ifs
  · dsimp only
    rw [update_self]
    dsimp only
    omega
  · dsimp only
    rw [update_self]
    dsimp only
    omega

lemma enclosed_outputOf (hn : Nested data n ctx) (hfit : data + n < uintRange)
    (hp : (ctx.node ctx.depth).start ≤ p) (hcur : p ≤ cur) (hlen : cur + len ≤ (ctx.node ctx.depth).next) :
    Enclosed data n (ctx.advance tag cur len) (outputOf schema tag p cur len ctx.depth) := by
  have hnext := hn.next_le ctx.depth (Nat.le_refl _)
  have hdata := hn.data_le_start
  obtain ⟨hopen, -, hend⟩ := hn.left ctx.depth (Nat.le_refl _)
  have key : ∀ a l, p ≤ a → a + l ≤ cur + len → Enclosed data n (ctx.advance tag cur len) (some ⟨tag, some a, l, ctx.depth⟩) := by
    rintro a l ha hl o ho b hb
    cases ho
    cases hb
    dsimp only
    rw [opened_advance]
    refine ⟨⟨?_, ?_⟩, ?_, ?_⟩ <;> omega
  unfold outputOf
  split
  · exact key cur len hcur (Nat.le_refl _)
  · split_ifs
    · rw [usub_of_le (by omega) hcur, uadd_of_lt (by omega)]
      exact key p _ (Nat.le_refl _) (by omega)
    · exact key cur len hcur (Nat.le_refl _)
    · intro o ho
      cases ho

lemma inArray_advanced (hd : ctx.depth < asn1MaxDepth)
    (hdeep : tlsAsn1Getform tag = true → ctx.depth + 1 < asn1MaxDepth) : InArray (ctx.advanced tag) := by
  unfold DecoderContext.advanced
  split_ifs with hform
  · have h := hdeep hform
    have hmod : (ctx.depth + 1) % 256 = ctx.depth + 1 := mod_eq_of_lt (by unfold asn1MaxDepth at h; omega)
    rw [hmod]
    simp [InArray, hd, h]
  · simp [InArray, hd]

lemma pass_safe (hn : Nested data n ctx) (hfit : data + n < uintRange) (hplace : InPlace m (data + n) ctx)
    (hp : FirstAt m (ctx.node ctx.depth).start p) :
    p < data + n ∧ SafeEnd data n ctx (pass m schema ctx p).outcome ∧ InInput data n (pass m schema ctx p).reads ∧
      InArray (pass m schema ctx p).nodes := by
  obtain ⟨p', hp', hfirst, hcase⟩ := hplace
  obtain rfl := hp.unique hfirst
  have hd := hn.depth_lt
  have hstart := hp.1
  have hdata := hn.data_le_start
  have hnext := hn.next_le ctx.depth (Nat.le_refl _)
  have hone : uadd p 1 = p + 1 := uadd_of_lt (by omega)
  have harray : InArray [ctx.depth] := by simp [InArray, hd]
  have hkept : ∀ ok, SafeEnd data n ctx (.ret ok ctx none) := fun ok => ⟨hn, fun o ho => by cases ho⟩
  refine ⟨hp', ?_⟩
  unfold pass
  rw [if_neg (Nat.not_le.2 hd), hone]
  dsimp only
  split_ifs at hcase with hbehind
  · -- the end of an element that is itself enclosed
    have hpop : (ctx.depth + 255) % 256 = ctx.depth - 1 := by
      unfold asn1MaxDepth at hd
      omega
    have hnested : Nested data n { ctx with depth := ctx.depth - 1 } := hn.pop (sub_le ..)
    rw [if_pos (by omega), hpop]
    refine ⟨?_, by simp [InInput]; omega, harray⟩
    split_ifs with hzero
    · exact ⟨hnested, fun o ho => by cases ho⟩
    · refine ⟨hnested, ?_⟩
      have hchain := hn.chain (ctx.depth - 1) (by omega)
      rw [Nat.sub_add_cancel hcase] at hchain
      have hleft := (hn.left ctx.depth (Nat.le_refl _)).2.1
      unfold measure
      dsimp only
      omega
  · obtain ⟨hsecond, hfits⟩ := hcase
    rw [if_neg (by omega)]
    split_ifs with hsize
    · exact ⟨hkept false, by simp [InInput]; omega, harray⟩
    · obtain ⟨hlen, hdeep⟩ := hfits (Nat.not_lt.1 hsize)
      have htwo : uadd (p + 1) 1 = p + 2 := uadd_of_lt (by omega)
      have hcur : uadd (p + 2) (sizeLen (m (p + 1))) = p + 2 + sizeLen (m (p + 1)) := uadd_of_lt (by omega)
      rw [htwo, hcur]
      generalize sizeLen (m (p + 1)) = k at *
      generalize thisLen m (p + 1) = len at *
      have hreads : InInput data n ([p, p + 1] ++ (List.range k).map fun i => p + 2 + i) := by
        intro a ha
        simp only [cons_append, nil_append, mem_cons, mem_map, mem_range] at ha
        rcases ha with rfl | rfl | ⟨i, hi, rfl⟩ <;> omega
      have hadvance : Nested data n (ctx.advance (m p) (p + 2 + k) len) := hn.advance hfit (by omega) hlen hdeep
      have hused := inArray_advanced hd hdeep
      cases checkSchema schema (m p) ctx.depth with
      | skipChecks => exact ⟨⟨hadvance, enclosed_outputOf hn hfit hstart (by omega) hlen⟩, hreads, hused⟩
      | seekNext =>
        exact ⟨⟨hadvance, measure_advance (uadd_of_lt (by omega)) (by omega) (by omega)⟩, hreads, hused⟩
      | mismatch => exact ⟨hkept false, hreads, harray⟩
      | absent =>
        refine ⟨⟨hn, ?_⟩, hreads, harray⟩
        intro o ho a ha
        cases ho
        cases ha

end Pass

/-! ### Calls and runs -/

structure SafeCall (data n : ℕ) (r : Asn1Call) : Prop where
  reads : InInput data n r.reads
  nodes : InArray r.nodes
  enclosed : Enclosed data n r.ctx r.out

section Calls

variable {m : Mem} {data n : ℕ} {schema : Option Schema} {ctx ctx' : DecoderContext} {p fuel : ℕ}
  {ok : Bool} {out : Option Asn1Out}

lemma decodeNext_of_ret (hp : FirstAt m (ctx.node ctx.depth).start p) (hlt : p < uintRange)
    (h : (pass m schema ctx p).outcome = .ret ok ctx' out) (hfuel : p < fuel) :
    tlsAsn1DecodeNext m schema fuel ctx =
      some ⟨ok, ctx', out,
        range' (ctx.node ctx.depth).start (p + 1 - (ctx.node ctx.depth).start) ++ (pass m schema ctx p).reads,
        (pass m schema ctx p).nodes⟩ := by
  obtain ⟨fuel, rfl⟩ := Nat.exists_eq_add_of_lt hfuel
  rw [tlsAsn1DecodeNext, skipZeros_of_firstAt hp hlt (by omega)]
  dsimp only
  rw [h]

lemma decodeNext_of_restart {r : Asn1Call} (hp : FirstAt m (ctx.node ctx.depth).start p) (hlt : p < uintRange)
    (h : (pass m schema ctx p).outcome = .restart ctx') (hfuel : p ≤ fuel)
    (hr : tlsAsn1DecodeNext m schema fuel ctx' = some r) :
    tlsAsn1DecodeNext m schema (fuel + 1) ctx =
      some ⟨r.ok, r.ctx, r.out,
        range' (ctx.node ctx.depth).start (p + 1 - (ctx.node ctx.depth).start) ++ (pass m schema ctx p).reads ++ r.reads,
        (pass m schema ctx p).nodes ++ r.nodes⟩ := by
  rw [tlsAsn1DecodeNext, skipZeros_of_firstAt hp hlt (by omega)]
  dsimp only
  rw [h]
  dsimp only
  rw [hr]
  rfl

lemma InInput.append {as bs : List ℕ} (h : InInput data n as) (h' : InInput data n bs) : InInput data n (as ++ bs) := by
  intro a ha
  rcases mem_append.1 ha with ha | ha
  · exact h a ha
  · exact h' a ha

lemma call_safe (hn : Nested data n ctx) (hfit : data + n < uintRange) (hplace : CallInPlace m (data + n) schema ctx) :
    ∃ r, (∃ N, ∀ fuel ≥ N, tlsAsn1DecodeNext m schema fuel ctx = some r) ∧ Nested data n r.ctx ∧ SafeCall data n r := by
  -- on the distance to the end of the input and the depth
  induction hk : measure (data + n) ctx using Nat.strong_induction_on generalizing ctx with
  | _ k ih =>
    have hhere : InPlace m (data + n) ctx := hplace ctx .refl
    obtain ⟨p, -, hp, -⟩ := id hhere
    have hpass := @pass_safe m data n ctx schema p hn hfit hhere hp
    obtain ⟨hlt, hend, hreads, hnodes⟩ := hpass
    have hzeros : InInput data n (range' (ctx.node ctx.depth).start (p + 1 - (ctx.node ctx.depth).start)) := by
      intro q hq
      have hq := mem_range'_1.1 hq
      have := hn.data_le_start
      omega
    cases hout : (pass m schema ctx p).outcome with
    | ret ok ctx' out =>
      rw [hout] at hend
      refine ⟨_, ⟨p + 1, fun fuel hfuel => decodeNext_of_ret hp (by omega) hout hfuel⟩, hend.1, ?_⟩
      exact ⟨hzeros.append hreads, hnodes, hend.2⟩
    | restart ctx' =>
      rw [hout] at hend
      have hplace' : CallInPlace m (data + n) schema ctx' := fun c hc => hplace c (.head ⟨p, hp, hout⟩ hc)
      obtain ⟨r, ⟨N, hr⟩, hnested, hsafe⟩ := ih _ (hk ▸ hend.2) hend.1 hplace' rfl
      have hcall : ∀ fuel ≥ max p N + 1, tlsAsn1DecodeNext m schema fuel ctx =
          some ⟨r.ok, r.ctx, r.out,
            range' (ctx.node ctx.depth).start (p + 1 - (ctx.node ctx.depth).start) ++ (pass m schema ctx p).reads ++ r.reads,
            (pass m schema ctx p).nodes ++ r.nodes⟩ := by
        intro fuel hfuel
        obtain ⟨fuel, rfl⟩ := exists_eq_succ_of_ne_zero (show fuel ≠ 0 by omega)
        exact decodeNext_of_restart hp (by omega) hout (by omega) (hr fuel (by omega))
      refine ⟨_, ⟨_, hcall⟩, hnested, (hzeros.append hreads).append hsafe.reads, ?_, hsafe.enclosed⟩
      intro i hi
      rcases mem_append.1 hi with hi | hi
      · exact hnodes i hi
      · exact hsafe.nodes i hi

lemma skipZeros_eq {a : ℕ} {r : List ℕ × ℕ} (h : FirstAt m a p) (hp : p < uintRange) (hr : skipZeros m fuel a = some r) :
    r.2 = p := by
  induction fuel generalizing a r with
  | zero => cases hr
  | succ fuel ih =>
    obtain ⟨hle, hne, hz⟩ := h
    unfold skipZeros at hr
    rcases Nat.eq_or_lt_of_le hle with rfl | hlt
    · rw [if_neg hne] at hr
      cases hr
      rfl
    · rw [if_pos (hz a (Nat.le_refl a) hlt), uadd_of_lt (by omega)] at hr
      obtain ⟨r', hr', rfl⟩ := Option.map_eq_some_iff.1 hr
      exact ih (r := r') ⟨hlt, hne, fun q hq => hz q (by omega)⟩ hr'

lemma callsInPlace_cons {ss : List (Option Schema)} {hi : ℕ} (hplace : InPlace m hi ctx) (hp : FirstAt m (ctx.node ctx.depth).start p) (hlt : p < uintRange)
    (hret : (pass m schema ctx p).outcome = .ret ok ctx' out) (hrest : CallsInPlace m hi ctx' ss) :
    CallsInPlace m hi ctx (schema :: ss) := by
  constructor
  · intro c hc
    rcases Relation.ReflTransGen.cases_head hc with rfl | ⟨c', ⟨p', hp', hout⟩, -⟩
    · exact hplace
    · rw [hp'.unique hp, hret] at hout
      cases hout
  · intro fuel r hr
    cases fuel with
    | zero => cases hr
    | succ fuel =>
      rw [tlsAsn1DecodeNext] at hr
      split at hr
      · cases hr
      · next zeros p' hzeros =>
        obtain rfl : p' = p := skipZeros_eq hp hlt hzeros
        dsimp only at hr
        rw [hret] at hr
        cases hr
        exact hrest

/-- **Decoding is safe as long as the decoder is in place**: each call of a run ends, reads the input only, uses no index
of `node[]` behind the array, and returns parts of the input that lie in the element around them. -/
theorem decode_safe {ctx₀ ctx : DecoderContext} (hfit : data + n < uintRange)
    (hinit : tlsAsn1DecoderInit ctx₀ (some data) n = some ctx) (schemas : List (Option Schema))
    (hplace : CallsInPlace m (data + n) ctx schemas) :
    ∃ calls, (∃ N, ∀ fuel ≥ N, decodeCalls m fuel ctx schemas = some calls) ∧ calls.length = schemas.length ∧
      ∀ r ∈ calls, SafeCall data n r := by
  have key : ∀ (schemas : List (Option Schema)) (ctx : DecoderContext), Nested data n ctx → CallsInPlace m (data + n) ctx schemas →
      ∃ calls, (∃ N, ∀ fuel ≥ N, decodeCalls m fuel ctx schemas = some calls) ∧ calls.length = schemas.length ∧
        ∀ r ∈ calls, SafeCall data n r := by
    intro schemas
    induction schemas with
    | nil => exact fun ctx _ _ => ⟨[], ⟨0, fun _ _ => rfl⟩, rfl, by simp⟩
    | cons s ss ih =>
      rintro ctx hn ⟨hcall, hrest⟩
      obtain ⟨r, ⟨N, hr⟩, hnested, hsafe⟩ := call_safe hn hfit hcall
      obtain ⟨calls, ⟨N', hcalls⟩, hlen, hall⟩ := ih r.ctx hnested (hrest N r (hr N (Nat.le_refl N)))
      refine ⟨r :: calls, ⟨max N N', fun fuel hfuel => ?_⟩, by simp [hlen], ?_⟩
      · rw [decodeCalls, hr fuel (by omega)]
        dsimp only
        rw [hcalls fuel (by omega)]
        rfl
      · intro r' hr'
        rcases mem_cons.1 hr' with rfl | hr'
        · exact hsafe
        · exact hall r' hr'
  exact key schemas ctx (.of_init hfit hinit) hplace

end Calls

def blankContext : DecoderContext := ⟨0, fun _ => ⟨0, 0⟩, fun _ => ⟨0, 0⟩⟩

def sequenceOfFive : Mem := Mem.write (fun _ => 0) 256 [0x30, 3, 2, 1, 5]

theorem decode_safe_sequence : ∃ ctx, tlsAsn1DecoderInit blankContext (some 256) 5 = some ctx ∧
    ∃ calls, (∃ N, ∀ fuel ≥ N, decodeCalls sequenceOfFive fuel ctx [none, none] = some calls) ∧ calls.length = 2 ∧
      ∀ r ∈ calls, SafeCall 256 5 r := by
  refine ⟨_, rfl, ?_⟩
  refine decode_safe (by decide) rfl [none, none] ?_
  have h1 : FirstAt sequenceOfFive 256 256 := .here (by decide)
  have h2 : FirstAt sequenceOfFive 258 258 := .here (by decide)
  refine callsInPlace_cons ⟨256, by decide, h1, by decide⟩ h1 (by decide) rfl ?_
  exact callsInPlace_cons ⟨258, by decide, h2, by decide⟩ h2 (by decide) rfl trivial

lemma decodeNext_of_loop {schema : Option Schema} {ctx : DecoderContext}
    (hp : FirstAt m (ctx.node ctx.depth).start p) (hlt : p < uintRange) (h : (pass m schema ctx p).outcome = .restart ctx) (fuel : ℕ) :
    tlsAsn1DecodeNext m schema fuel ctx = none := by
  induction fuel with
  | zero => rfl
  | succ fuel ih =>
    rw [tlsAsn1DecodeNext]
    split
    · rfl
    · next zeros p' hzeros =>
      obtain rfl : p' = p := skipZeros_eq hp hlt hzeros
      dsimp only
      rw [h]
      dsimp only
      rw [ih]
      rfl

lemma DecoderContext.past_self (ctx : DecoderContext) : ctx.past (ctx.node ctx.depth).start = ctx := by
  unfold DecoderContext.past
  rw [update_eq_self]

def bytesAt256 (bs : Bytes) : Mem := Mem.write (fun _ => 0xff) 256 bs

/-- `05 00`, decoded twice: the second call reads behind the input, and leaves the array. `04 05`: the content that is
returned is not there. `04 83 ff ff fb`: the length brings the pointer back to the element, and a search never ends. -/
theorem decode_unsafe : (∃ ctx calls, tlsAsn1DecoderInit blankContext (some 256) 2 = some ctx ∧
      decodeCalls (bytesAt256 [5, 0]) 3 ctx [none, none] = some calls ∧
      ∃ r ∈ calls, ¬ InInput 256 2 r.reads ∧ ¬ InArray r.nodes) ∧
    (∃ ctx r, tlsAsn1DecoderInit blankContext (some 256) 2 = some ctx ∧
      tlsAsn1DecodeNext (bytesAt256 [4, 5]) none 3 ctx = some r ∧ ¬ Enclosed 256 2 r.ctx r.out) ∧
    ∃ ctx, tlsAsn1DecoderInit blankContext (some 256) 5 = some ctx ∧
      ∀ fuel, tlsAsn1DecodeNext (bytesAt256 [4, 0x83, 0xff, 0xff, 0xfb])
        (some ⟨asn1Integer, 0, false, false, true, .asn1Seek, false⟩) fuel ctx = none := by
  refine ⟨⟨_, _, rfl, rfl, _, .tail _ (.head _), ?_, ?_⟩, ⟨_, _, rfl, rfl, ?_⟩, ⟨_, rfl, fun fuel => ?_⟩⟩
  · intro h
    exact absurd (h 258 (by decide)) (by decide)
  · intro h
    exact absurd (h 255 (by decide)) (by decide)
  · intro h
    exact absurd (h _ rfl _ rfl) (by decide)
  · refine decodeNext_of_loop (.here (by decide)) (by decide) ?_ fuel
    exact congrArg Outcome.restart (DecoderContext.past_self _)

end LwftpCe.Tls.Asn1
