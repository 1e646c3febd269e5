import LwftpCe.Tls.Gcm
import Mathlib.Algebra.Order.BigOperators.Group.List

/-!
# GCM in pieces

A message is encrypted or decrypted by several calls on one context (`stream`).  The result is that of a single call
exactly for the splittings in which no call but the last ends at the end of a keystream block, and every call has bytes
enough for what is left of the block of the call before it (`GoodFrom`).  At the end of a block the keystream block that
the call has computed in advance is lost; a call that is too short goes beyond its bytes.
-/

namespace LwftpCe.Tls

open Lib List Function

structure Chunk where
  inbuf : Mem
  len : ℕ
  outbuf : Mem

def Chunk.data (c : Chunk) : Bytes := c.inbuf.read 0 c.len

inductive Direction
  | encrypt
  | decrypt
deriving DecidableEq

def Direction.op : Direction → AesOp
  | .encrypt => .encrypt
  | .decrypt => .decrypt

def crypt (P : Prims) : Direction → AesCtx → Chunk → AesCall
  | .encrypt, ctx, c => tlsAesEncrypt P ctx c.inbuf c.len c.outbuf
  | .decrypt, ctx, c => tlsAesDecrypt P ctx c.inbuf c.len c.outbuf

def cryptAll (P : Prims) (dir : Direction) : AesCtx → List Chunk → List AesCall × AesCtx
  | ctx, [] => ([], ctx)
  | ctx, c :: cs =>
    let s := crypt P dir ctx c
    let r := cryptAll P dir s.ctx cs
    (s :: r.1, r.2)

def outputs (chunks : List Chunk) (calls : List AesCall) : Bytes :=
  (List.zipWith (fun c s => s.out.read 0 c.len) chunks calls).flatten

structure Streamed where
  calls : List AesCall
  text : Bytes
  tag : Option Block

def stream (P : Prims) (dir : Direction) (key iv : Bytes) (aads : List Bytes) (chunks : List Chunk) : Option Streamed :=
  (tlsAesInit P .gcm key iv).bind fun ctx =>
    (aads.foldlM (tlsAesUpdateAad P) ctx).map fun ctx =>
      let r := cryptAll P dir ctx chunks
      ⟨r.1, outputs chunks r.1, (tlsAesDigest P r.2).map Prod.snd⟩

def Inside (c : Chunk) (s : AesCall) : Prop := ∀ r ∈ s.reads ++ s.writes, r.1 + r.2 ≤ c.len

/-- The chunks give the output and the digest of the whole message `whole` in a single call, every call succeeds and
none goes beyond its bytes. -/
def SameAsOne (P : Prims) (dir : Direction) (key iv : Bytes) (aads : List Bytes) (chunks : List Chunk) (whole : Chunk) : Prop :=
  ∃ many one, stream P dir key iv aads chunks = some many ∧ stream P dir key iv [aads.flatten] [whole] = some one ∧
    many.text = one.text ∧ many.tag = one.tag ∧ many.tag ≠ none ∧ (∀ s ∈ many.calls, s.ok = true) ∧
    List.Forall₂ Inside chunks many.calls

def GoodFrom : ℕ → List ℕ → Prop
  | _, [] => True
  | m, l :: ls => (m = 0 ∨ m % 16 ≠ 0 ∧ 16 ≤ m % 16 + l) ∧ GoodFrom (m + l) ls

instance decidableGoodFrom : ∀ m ls, Decidable (GoodFrom m ls)
  | _, [] => .isTrue trivial
  | m, l :: ls =>
    have := decidableGoodFrom (m + l) ls
    inferInstanceAs (Decidable ((m = 0 ∨ m % 16 ≠ 0 ∧ 16 ≤ m % 16 + l) ∧ GoodFrom (m + l) ls))

/-! ### A good splitting -/

section Good

variable {P : Prims} {dir : Direction} {key iv A C : Bytes} {j0 : Block} {c : Chunk} {chunks : List Chunk}

def Direction.cipherOf (dir : Direction) (E : Block → Block) (icb : Block) (m : ℕ) (d : Bytes) : Bytes :=
  match dir with
  | .encrypt => ctr E icb m d
  | .decrypt => d

@[simp] lemma length_cipherOf (E : Block → Block) (icb : Block) (m : ℕ) (d : Bytes) : (dir.cipherOf E icb m d).length = d.length := by
  cases dir <;> simp [Direction.cipherOf]

lemma cipherOf_append (E : Block → Block) (icb : Block) (m : ℕ) (d e : Bytes) :
    dir.cipherOf E icb m (d ++ e) = dir.cipherOf E icb m d ++ dir.cipherOf E icb (m + d.length) e := by
  cases dir
  · exact ctr_append ..
  · rfl

@[simp] lemma Chunk.length_data (c : Chunk) : c.data.length = c.len := Mem.length_read ..

lemma crypt_fed (h0 : 0 < c.len) (hn : c.len < 2 ^ 24) (h : Follows C c.len) :
    Wrote (crypt P dir (fed P key j0 dir.op A C) c) c.len c.outbuf
        (ctr (P.encryptBlock key) (inc32 j0) C.length c.data) ∧
      (crypt P dir (fed P key j0 dir.op A C) c).ctx =
        fed P key j0 dir.op A (C ++ dir.cipherOf (P.encryptBlock key) (inc32 j0) C.length c.data) := by
  cases dir
  · exact tlsAesEncrypt_gcm h0 hn h
  · exact tlsAesDecrypt_gcm h0 hn h

lemma Wrote.inside {s : AesCall} {text : Bytes} (h : Wrote s c.len c.outbuf text) : Inside c s := by
  intro r hr
  rcases mem_append.1 hr with hr | hr
  · exact h.reads r hr
  · exact h.writes r hr

def dataOf (chunks : List Chunk) : Bytes := (chunks.map Chunk.data).flatten

lemma length_dataOf (chunks : List Chunk) : (dataOf chunks).length = (chunks.map Chunk.len).sum := by
  simp only [dataOf, length_flatten, map_map]
  congr 1
  exact map_congr_left fun c _ => c.length_data

lemma cryptAll_fed (hpos : ∀ c ∈ chunks, 0 < c.len) (hlt : ∀ c ∈ chunks, c.len < 2 ^ 24)
    (hgood : GoodFrom C.length (chunks.map Chunk.len)) :
    let r := cryptAll P dir (fed P key j0 dir.op A C) chunks
    outputs chunks r.1 = ctr (P.encryptBlock key) (inc32 j0) C.length (dataOf chunks) ∧
      r.2 = fed P key j0 dir.op A (C ++ dir.cipherOf (P.encryptBlock key) (inc32 j0) C.length (dataOf chunks)) ∧
      (∀ s ∈ r.1, s.ok = true) ∧ List.Forall₂ Inside chunks r.1 := by
  induction chunks generalizing C with
  | nil =>
    refine ⟨rfl, ?_, fun s hs => absurd hs not_mem_nil, .nil⟩
    cases dir <;> simp [cryptAll, dataOf, Direction.cipherOf]
  | cons c cs ih =>
    obtain ⟨hc, hcs⟩ := hgood
    have hfollows : Follows C c.len := hc.imp_left length_eq_zero_iff.1
    obtain ⟨hw, hctx⟩ := crypt_fed (hpos c (by simp))
      (hlt c (by simp)) hfollows
    have hlen : (C ++ dir.cipherOf (P.encryptBlock key) (inc32 j0) C.length c.data).length = C.length + c.len := by simp
    obtain ⟨htext, hend, hok, hin⟩ := ih (fun d hd => hpos d (by simp [hd])) (fun d hd => hlt d (by simp [hd]))
      (hlen.symm ▸ hcs)
    rw [hlen] at htext hend
    have hdata : dataOf (c :: cs) = c.data ++ dataOf cs := rfl
    have hcall : cryptAll P dir (fed P key j0 dir.op A C) (c :: cs) =
        (crypt P dir (fed P key j0 dir.op A C) c :: (cryptAll P dir (fed P key j0 dir.op A
          (C ++ dir.cipherOf (P.encryptBlock key) (inc32 j0) C.length c.data)) cs).1,
         (cryptAll P dir (fed P key j0 dir.op A
          (C ++ dir.cipherOf (P.encryptBlock key) (inc32 j0) C.length c.data)) cs).2) := by
      rw [cryptAll, hctx]
    rw [hcall]
    refine ⟨?_, ?_, ?_, .cons hw.inside hin⟩
    · rw [hdata, ctr_append, Chunk.length_data, ← htext, ← hw.text]
      rfl
    · rw [hend, hdata, cipherOf_append, Chunk.length_data, append_assoc]
    · intro s hs
      rcases mem_cons.1 hs with rfl | hs
      · exact hw.ok
      · exact hok s hs

lemma foldlM_updateAad (aads : List Bytes) (A : Bytes) :
    aads.foldlM (tlsAesUpdateAad P) (afterAad P key j0 A) = some (afterAad P key j0 (A ++ aads.flatten)) := by
  induction aads generalizing A with
  | nil => simp
  | cons a as ih =>
    rw [foldlM_cons, tlsAesUpdateAad_eq]
    exact (ih (A ++ a)).trans (by simp)

lemma stream_eq (hk : ValidKey key) (hiv : iv.length ≤ 16) (aads : List Bytes) (chunks : List Chunk) :
    stream P dir key iv aads chunks =
      let r := cryptAll P dir (fed P key (ivBlock P key iv) dir.op aads.flatten []) chunks
      some ⟨r.1, outputs chunks r.1, (tlsAesDigest P r.2).map Prod.snd⟩ := by
  unfold stream
  rw [tlsAesInit_gcm hk hiv, Option.bind_some, foldlM_updateAad]
  rfl

lemma GoodFrom.sameAsOne {aads : List Bytes} {whole : Chunk} (hgood : GoodFrom 0 (chunks.map Chunk.len))
    (hne : chunks ≠ []) (hpos : ∀ c ∈ chunks, 0 < c.len) (hlt : whole.len < 2 ^ 24) (hdata : whole.data = dataOf chunks)
    (hk : ValidKey key) (hiv : iv.length ≤ 16) : SameAsOne P dir key iv aads chunks whole := by
  have hsum : whole.len = (chunks.map Chunk.len).sum := by rw [← length_dataOf, ← hdata, Chunk.length_data]
  have hle : ∀ c ∈ chunks, c.len ≤ whole.len := fun c hc => hsum ▸ single_le_sum (by simp) _ (mem_map_of_mem hc)
  have hwhole : 0 < whole.len := by
    obtain ⟨c, cs, rfl⟩ := exists_cons_of_ne_nil hne
    exact Nat.lt_of_lt_of_le (hpos c (by simp)) (hle c (by simp))
  obtain ⟨htext, hend, hok, hin⟩ := cryptAll_fed (C := []) hpos (fun c hc => Nat.lt_of_le_of_lt (hle c hc) hlt) hgood
  obtain ⟨htext', hend', -, -⟩ :=
    @cryptAll_fed P dir key aads.flatten [] (ivBlock P key iv) [whole] (by simpa using hwhole) (by simpa using hlt) ⟨.inl rfl, trivial⟩
  have hsingle : dataOf [whole] = dataOf chunks := by rw [← hdata]; simp [dataOf]
  refine ⟨_, _, stream_eq hk hiv .., stream_eq hk hiv .., ?_, ?_, ?_, hok, hin⟩
  · rw [htext]
    simp only [flatten_singleton, htext', hsingle]
  · simp only [hend, flatten_singleton, hend', hsingle]
  · have hC : [] ++ dir.cipherOf (P.encryptBlock key) (inc32 (ivBlock P key iv)) ([] : Bytes).length (dataOf chunks) ≠ [] := by
      refine length_pos_iff.1 ?_
      rw [nil_append, length_cipherOf, ← hdata, Chunk.length_data]
      exact hwhole
    simp only [hend, tlsAesDigest_fed hC]
    exact Option.some_ne_none _

end Good

/-! ### The other splittings -/

section Bad

variable {P : Prims} {dir : Direction} {key iv A C : Bytes} {j0 : Block} {c : Chunk} {inbuf : Mem} {off : ℕ}
  {blocks n : ℕ} {ctx : AesCtx} {out : Mem}

lemma mem_reads_foldl {inLen : ℕ} {r : ℕ × ℕ} (l : List ℕ) {s : AesCall} (h : r ∈ s.reads) :
    r ∈ (l.foldl (ctrStep P inbuf inLen off blocks) s).reads := by
  induction l generalizing s with
  | nil => exact h
  | cons i l ih => exact ih (mem_cons_of_mem _ h)

lemma ctrCrypt_inside (h : ctx.lastBlockLen % 16 ≠ 0)
    (hoff : usub 16 ctx.lastBlockLen = off) (hblocks : usub n off / 16 = blocks) : ctrCrypt P ctx inbuf n out =
      (List.range (blocks + 1)).foldl (ctrStep P inbuf n off blocks)
        ⟨true, ctx, out.write 0 (xorBytes (inbuf.read 0 off) (ctx.lastBlock.bytes.drop ctx.lastBlockLen)), [(0, off)],
          [(0, off)]⟩ := by
  unfold ctrCrypt
  rw [if_pos h, hoff]
  dsimp only
  rw [hblocks]

lemma ctrCrypt_reads (h : ctx.lastBlockLen % 16 ≠ 0)
    (hoff : usub 16 ctx.lastBlockLen = off) : (0, off) ∈ (ctrCrypt P ctx inbuf n out).reads := by
  obtain ⟨blocks, hblocks⟩ : ∃ blocks, usub n off / 16 = blocks := ⟨_, rfl⟩
  rw [ctrCrypt_inside h hoff hblocks]
  exact mem_reads_foldl _ (mem_singleton.2 rfl)

lemma started_carry (hC : C ≠ []) {op : AesOp} : (started P key j0 op A C).lastBlockLen = C.length % 16 ∧
    (started P key j0 op A C).iv = inc32^[C.length / 16 + 1] (inc32 j0) := by
  simp [started, fed, afterText, hC]

lemma not_inside_of_short (h0 : 0 < c.len) (hm : C.length % 16 ≠ 0) (hshort : C.length % 16 + c.len < 16) :
    ¬ Inside c (crypt P dir (fed P key j0 dir.op A C) c) := by
  intro hin
  have hC : C ≠ [] := by
    rintro rfl
    exact hm rfl
  have hsub : usub 16 (C.length % 16) = 16 - C.length % 16 := usub_of_le (by decide) (by omega)
  have hmem : (0, 16 - C.length % 16) ∈ (crypt P dir (fed P key j0 dir.op A C) c).reads := by
    cases dir
    · rw [crypt, Direction.op, tlsAesEncrypt_fed h0]
      exact ctrCrypt_reads (by rw [(started_carry hC).1]; omega) (by rw [(started_carry hC).1, hsub])
    · rw [crypt, Direction.op, tlsAesDecrypt_fed h0]
      refine mem_append_left _ ?_
      have hlast : (((started P key j0 .decrypt A C).ghash P (c.inbuf.read 0 c.len)).countText c.len).lastBlockLen =
        C.length % 16 := (started_carry hC).1
      exact ctrCrypt_reads (by rw [hlast]; omega) (by rw [hlast, hsub])
  have := hin _ (mem_append_left _ hmem)
  omega

lemma crypt_lost (h0 : 0 < c.len) (hn : c.len < 2 ^ 24) (hC : C ≠ []) (hm : C.length % 16 = 0) :
    (crypt P dir (fed P key j0 dir.op A C) c).out.read 0 c.len =
      ctr (P.encryptBlock key) (inc32^[C.length / 16 + 1] (inc32 j0)) 0 c.data := by
  cases dir
  · have hlast : (started P key j0 .encrypt A C).lastBlockLen = 0 := (started_carry hC).1.trans hm
    obtain ⟨hw, -⟩ := ctrCrypt_fresh (m := 0) hn rfl hlast (started_carry hC).2
    rw [started_key] at hw
    rw [crypt, Direction.op, tlsAesEncrypt_fed h0]
    exact hw.text
  · have hlast : (((started P key j0 .decrypt A C).ghash P (c.inbuf.read 0 c.len)).countText c.len).lastBlockLen = 0 :=
      (started_carry hC).1.trans hm
    have hkey : (((started P key j0 .decrypt A C).ghash P (c.inbuf.read 0 c.len)).countText c.len).key = key := started_key
    obtain ⟨hw, -⟩ := ctrCrypt_fresh (m := 0) hn rfl hlast (started_carry hC).2
    rw [hkey] at hw
    rw [crypt, Direction.op, tlsAesDecrypt_fed h0]
    exact hw.text

lemma exists_bad {m : ℕ} {ls : List ℕ} (h : ¬ GoodFrom m ls) : ∃ ks l rest, ls = ks ++ l :: rest ∧ GoodFrom m ks ∧
    m + ks.sum ≠ 0 ∧ ((m + ks.sum) % 16 = 0 ∨ (m + ks.sum) % 16 + l < 16) := by
  induction ls generalizing m with
  | nil => exact absurd trivial h
  | cons l ls ih =>
    by_cases hl : m = 0 ∨ m % 16 ≠ 0 ∧ 16 ≤ m % 16 + l
    · obtain ⟨ks, l', rest, rfl, hks, h0, hbad⟩ := ih fun hls => h ⟨hl, hls⟩
      refine ⟨l :: ks, l', rest, rfl, ⟨hl, hks⟩, ?_⟩
      rw [sum_cons, ← Nat.add_assoc]
      exact ⟨h0, hbad⟩
    · refine ⟨[], l, ls, rfl, trivial, ?_⟩
      rw [sum_nil]
      omega

lemma cryptAll_append (ctx : AesCtx) (cs ds : List Chunk) : cryptAll P dir ctx (cs ++ ds) =
      ((cryptAll P dir ctx cs).1 ++ (cryptAll P dir (cryptAll P dir ctx cs).2 ds).1,
        (cryptAll P dir (cryptAll P dir ctx cs).2 ds).2) := by
  induction cs generalizing ctx with
  | nil => rfl
  | cons c cs ih => simp [cryptAll, ih]

lemma outputs_append {cs ds : List Chunk} {ss ts : List AesCall} (h : cs.length = ss.length) :
    outputs (cs ++ ds) (ss ++ ts) = outputs cs ss ++ outputs ds ts := by
  simp only [outputs, zipWith_append h, flatten_append]

lemma length_cryptAll (ctx : AesCtx) (cs : List Chunk) : (cryptAll P dir ctx cs).1.length = cs.length := by
  induction cs generalizing ctx with
  | nil => rfl
  | cons c cs ih => simp [cryptAll, ih]

variable {pre post : List Chunk}

lemma calls_split (hpos : ∀ c ∈ pre, 0 < c.len) (hlt : ∀ c ∈ pre, c.len < 2 ^ 24)
    (hgood : GoodFrom 0 (pre.map Chunk.len)) : ∃ C calls rest, C.length = (dataOf pre).length ∧ pre.length = calls.length ∧
      outputs pre calls = ctr (P.encryptBlock key) (inc32 j0) 0 (dataOf pre) ∧
      (cryptAll P dir (fed P key j0 dir.op A []) (pre ++ c :: post)).1 =
        calls ++ crypt P dir (fed P key j0 dir.op A C) c :: rest := by
  obtain ⟨hpre, hend, -, -⟩ := cryptAll_fed (C := []) hpos hlt hgood
  refine ⟨dir.cipherOf (P.encryptBlock key) (inc32 j0) 0 (dataOf pre), _, (cryptAll P dir (crypt P dir
    (fed P key j0 dir.op A (dir.cipherOf (P.encryptBlock key) (inc32 j0) 0 (dataOf pre))) c).ctx post).1, by simp,
    (length_cryptAll ..).symm, hpre, ?_⟩
  rw [cryptAll_append, hend]
  rfl

lemma not_sameAsOne_of_short {aads : List Bytes} {whole : Chunk} (hk : ValidKey key) (hiv : iv.length ≤ 16)
    (hpos : ∀ c ∈ pre, 0 < c.len) (hlt : ∀ c ∈ pre, c.len < 2 ^ 24) (hgood : GoodFrom 0 (pre.map Chunk.len))
    (h0 : 0 < c.len) (hm : (dataOf pre).length % 16 ≠ 0) (hshort : (dataOf pre).length % 16 + c.len < 16) :
    ¬ SameAsOne P dir key iv aads (pre ++ c :: post) whole := by
  rintro ⟨many, one, hmany, -, -, -, -, -, hin⟩
  rw [stream_eq hk hiv] at hmany
  cases hmany
  obtain ⟨C, calls, rest, hC, hlen, -, hcalls⟩ := calls_split hpos hlt hgood
  rw [hcalls] at hin
  have hrest := forall₂_drop_append _ _ _ hin
  rw [← hlen, drop_left] at hrest
  exact not_inside_of_short h0 (by rw [hC]; exact hm) (by rw [hC]; exact hshort) (forall₂_cons.1 hrest).1

lemma SameAsOne.lost {aads : List Bytes} {whole : Chunk} (h : SameAsOne P dir key iv aads (pre ++ c :: post) whole)
    (hk : ValidKey key) (hiv : iv.length ≤ 16) (hpos : ∀ c ∈ pre, 0 < c.len) (hlt : whole.len < 2 ^ 24)
    (hdata : whole.data = dataOf (pre ++ c :: post)) (hgood : GoodFrom 0 (pre.map Chunk.len)) (h0 : 0 < c.len)
    (hpre : dataOf pre ≠ []) (hm : (dataOf pre).length % 16 = 0) :
    ctr (P.encryptBlock key) (inc32^[(dataOf pre).length / 16 + 1] (inc32 (ivBlock P key iv))) 0 c.data =
      ctr (P.encryptBlock key) (inc32 (ivBlock P key iv)) (dataOf pre).length c.data := by
  obtain ⟨many, one, hmany, hone, htext, -⟩ := h
  rw [stream_eq hk hiv] at hmany hone
  cases hmany
  cases hone
  have hsplit : dataOf (pre ++ c :: post) = dataOf pre ++ (c.data ++ dataOf post) := by simp [dataOf]
  have hwhole : whole.len = (dataOf pre).length + (c.len + (dataOf post).length) := by
    rw [← whole.length_data, hdata, hsplit]
    simp
  have hle : ∀ d ∈ pre, d.len < 2 ^ 24 := by
    intro d hd
    have : d.len ≤ (dataOf pre).length := by
      rw [length_dataOf]
      exact single_le_sum (by simp) _ (mem_map_of_mem hd)
    omega
  -- the single call
  obtain ⟨hsingle, -, -, -⟩ :=
    @cryptAll_fed P dir key [aads.flatten].flatten [] (ivBlock P key iv) [whole] (by simp; omega) (by simpa using hlt) ⟨.inl rfl, trivial⟩
  have hwdata : dataOf [whole] = dataOf pre ++ (c.data ++ dataOf post) := by
    rw [← hsplit, ← hdata]
    simp [dataOf]
  -- and the calls
  obtain ⟨C, calls, rest, hC, hlen, hout, hcalls⟩ := calls_split hpos hle hgood
  have hCne : C ≠ [] := length_pos_iff.1 (by rw [hC]; exact length_pos_iff.2 hpre)
  have hlost := @crypt_lost P dir key aads.flatten C (ivBlock P key iv) c h0 (by omega) hCne
    (by rw [hC]; exact hm)
  have hcons : outputs (c :: post) (crypt P dir (fed P key (ivBlock P key iv) dir.op aads.flatten C) c :: rest) =
      (crypt P dir (fed P key (ivBlock P key iv) dir.op aads.flatten C) c).out.read 0 c.len ++ outputs post rest := rfl
  rw [hcalls, outputs_append hlen, hout, hcons, hlost, hC, hsingle, hwdata, ctr_append, ctr_append,
    length_nil, Nat.zero_add] at htext
  have htail := append_cancel_left htext
  exact (append_inj htail (by simp)).1

def counterPrims : Prims where
  encryptBlock _ b := ⟨List.replicate 16 (b.byte 15), List.length_replicate⟩
  decryptBlock _ b := b
  gf128Mul a _ := a

lemma inc32_byte_ne (b : Block) : (inc32 b).byte 15 ≠ b.byte 15 := by
  obtain ⟨x, y, hsplit⟩ : ∃ x y, b.bytes.drop 12 = x ++ [y] :=
    ⟨_, _, (dropLast_append_getLast (length_pos_iff.1 (by simp))).symm⟩
  have hx : x.length = 3 := by
    have := congrArg List.length hsplit
    simp at this
    omega
  have hlast : b.byte 15 = y := by
    have : b.bytes = b.bytes.take 12 ++ (x ++ [y]) := by rw [← hsplit, take_append_drop]
    rw [Block.byte, this]
    simp [getD_eq_getElem?_getD, hx]
  have hinc : (inc32 b).byte 15 = y + 1 := by
    have hbytes : (inc32 b).bytes = b.bytes.take 12 ++ be 4 (256 * beNat x + y.toNat + 1) := by
      rw [← beNat_concat, ← hsplit]
      rfl
    have hend : UInt8.ofNat (256 * beNat x + y.toNat + 1) = y + 1 := by
      apply UInt8.toNat_inj.1
      rw [UInt8.toNat_ofNat']
      simp
      omega
    rw [Block.byte, hbytes]
    simp [be, getD_eq_getElem?_getD]
  rw [hlast, hinc]
  intro h
  have := congrArg UInt8.toNat h
  simp at this
  omega

lemma ctr_lost_ne {icb : Block} {q l : ℕ} (hl : 0 < l) {d : Bytes} (hd : d.length = l) :
    ctr (counterPrims.encryptBlock key) (inc32^[q + 1] icb) 0 d ≠ ctr (counterPrims.encryptBlock key) icb (16 * q) d := by
  intro h
  obtain ⟨b, d, rfl⟩ := exists_cons_of_ne_nil (length_pos_iff.1 (hd ▸ hl))
  have hhead := (List.cons.inj h).1
  have hkey : keyByte (counterPrims.encryptBlock key) icb (16 * q) =
      keyByte (counterPrims.encryptBlock key) (inc32^[q] icb) 0 := keyByte_add q 0
  rw [hkey, UInt8.xor_right_inj] at hhead
  rw [iterate_succ_apply'] at hhead
  exact inc32_byte_ne _ hhead

def zeroChunk (len : ℕ) : Chunk := ⟨fun _ => 0, len, fun _ => 0⟩

lemma dataOf_zeroChunk (ls : List ℕ) : dataOf (ls.map zeroChunk) = replicate ls.sum 0 := by
  have hdata : ∀ l, (zeroChunk l).data = replicate l 0 := fun l => by
    simp [zeroChunk, Chunk.data, Mem.read]
  induction ls with
  | nil => rfl
  | cons l ls ih =>
    have hcons : dataOf ((l :: ls).map zeroChunk) = (zeroChunk l).data ++ dataOf (ls.map zeroChunk) := rfl
    rw [hcons, ih, hdata, replicate_append_replicate, sum_cons]

end Bad

/-- **Streaming is independent of the chunks exactly for the good splittings.** -/
theorem stream_chunks_iff (dir : Direction) {lens : List ℕ} (hne : lens ≠ []) (hpos : ∀ l ∈ lens, 0 < l)
    (hsum : lens.sum + 16 ≤ 2 ^ 24) :
    (∀ (P : Prims) (key iv : Bytes) (aads : List Bytes) (chunks : List Chunk) (whole : Chunk), ValidKey key →
      iv.length ≤ 16 → aads.flatten.length + 16 ≤ 2 ^ 24 → chunks.map Chunk.len = lens → whole.data = dataOf chunks →
      SameAsOne P dir key iv aads chunks whole) ↔ GoodFrom 0 lens := by
  constructor
  · intro hall
    by_contra hbad
    obtain ⟨ks, l, rest, rfl, hgood, h0, hbad⟩ := exists_bad hbad
    have hlens : ∀ ls : List ℕ, (ls.map zeroChunk).map Chunk.len = ls := fun ls => by simp [zeroChunk, comp_def]
    have hmap : (ks ++ l :: rest).map zeroChunk = ks.map zeroChunk ++ zeroChunk l :: rest.map zeroChunk := by simp
    have hpre : (dataOf (ks.map zeroChunk)).length = ks.sum := by rw [length_dataOf, hlens]
    have hdata : (zeroChunk (ks ++ l :: rest).sum).data = dataOf ((ks ++ l :: rest).map zeroChunk) := by
      rw [dataOf_zeroChunk]
      simp [zeroChunk, Chunk.data, Mem.read]
    have hkpos : ∀ c ∈ ks.map zeroChunk, 0 < c.len := fun c hc => by
      obtain ⟨k, hk, rfl⟩ := mem_map.1 hc
      exact hpos k (by simp [hk])
    have hklt : ∀ c ∈ ks.map zeroChunk, c.len < 2 ^ 24 := fun c hc => by
      obtain ⟨k, hk, rfl⟩ := mem_map.1 hc
      have : k ≤ (ks ++ l :: rest).sum := single_le_sum (by simp) _ (by simp [hk])
      simp only [zeroChunk]
      omega
    have hl : 0 < (zeroChunk l).len := hpos l (by simp)
    have hsame := hall counterPrims (replicate 16 0) (replicate 12 0) [] ((ks ++ l :: rest).map zeroChunk)
      (zeroChunk (ks ++ l :: rest).sum) (by decide) (by decide) (by simp) (hlens _) hdata
    rw [hmap] at hsame hdata
    by_cases hm : ks.sum % 16 = 0
    · have hlost := hsame.lost (by decide) (by decide) hkpos (by simp only [zeroChunk]; omega) hdata (by rw [hlens]; exact hgood) hl
        (length_pos_iff.1 (by omega)) (by omega)
      have hdiv : ks.sum = 16 * (ks.sum / 16) := by omega
      rw [hpre, hdiv, Nat.mul_div_cancel_left _ (by decide)] at hlost
      exact ctr_lost_ne hl (Chunk.length_data _) hlost
    · exact not_sameAsOne_of_short (by decide) (by decide) hkpos hklt (by rw [hlens]; exact hgood) hl (by omega)
        (by rw [hpre]; simp only [zeroChunk]; omega) hsame
  · rintro hgood P key iv aads chunks whole hk hiv - rfl hdata
    refine hgood.sameAsOne (by simpa using hne) (fun c hc => hpos _ (mem_map_of_mem hc)) ?_ hdata hk hiv
    rw [← whole.length_data, hdata, length_dataOf]
    omega

theorem stream_chunks_twenty_thirty : SameAsOne aesPrims .encrypt (List.replicate 16 7)
    (List.replicate 12 1) [[1, 2], [3]] [zeroChunk 20, zeroChunk 30] (zeroChunk 50) :=
  (stream_chunks_iff .encrypt (by decide) (by decide) (by decide)).2 (by decide) _ _ _ _ _ _ (by decide) (by decide) (by decide)
    rfl (by decide)

/-- Two blocks of zeros in two calls, with AES, the zero key and the zero nonce. -/
theorem stream_two_blocks : ¬ SameAsOne aesPrims .encrypt (List.replicate 16 0) (List.replicate 12 0) []
    [zeroChunk 16, zeroChunk 16] (zeroChunk 32) := by
  intro h
  have hlost := @SameAsOne.lost _ _ _ _ (zeroChunk 16) [zeroChunk 16] [] _ _ h (by decide) (by decide)
    (by simp [zeroChunk]) (by decide) (by decide) (by decide) (by decide) (by decide) (by decide)
  have hshift : ctr (Aes.cipher (replicate 16 0)) (inc32 (.ofBytes (replicate 12 0 ++ [0, 0, 0, 1]))) (16 * 1 + 0)
      (replicate 16 0) = _ := ctr_shift 1 0 _
  -- the second and the third block of the keystream
  have hblocks : ctr (Aes.cipher (replicate 16 0)) (inc32^[2] (inc32 (.ofBytes (replicate 12 0 ++ [0, 0, 0, 1])))) 0
      (replicate 16 0) = ctr (Aes.cipher (replicate 16 0))
        (inc32^[1] (inc32 (.ofBytes (replicate 12 0 ++ [0, 0, 0, 1])))) 0 (replicate 16 0) := hlost.trans hshift
  exact absurd hblocks (by decide +kernel)

end LwftpCe.Tls
