import LwftpCe.Eth.Rings

/-!
# The way through a block ends

A chain of tables may lead back to itself, and a table may have no end: it is the ring that ends the loops of
`ncm_receive_callback`, which refuses the frame that no longer fits.  `ncmLoop_more` says that more fuel does not change what
has come of a block, and `recording` keeps the frames that the ring has accepted.
-/

namespace LwftpCe.Eth

open Lib Buffer List

section Loops

variable {τ : Type} {push : Bytes → τ → Bool × τ} {ntb : Mem}

lemma ncmLoop_more : ∀ {fuel fuel' : ℕ} {p : Place} {log : List Access} {s : τ},
    (ncmLoop push ntb fuel p log s).1.1 ≠ .running → fuel ≤ fuel' →
    ncmLoop push ntb fuel' p log s = ncmLoop push ntb fuel p log s := by
  intro fuel
  induction fuel with
  | zero =>
    intro fuel' p log s h _
    exact absurd rfl h
  | succ fuel ih =>
    intro fuel' p log s h hle
    obtain ⟨n, rfl⟩ : ∃ n, fuel' = n + 1 := ⟨fuel' - 1, by omega⟩
    unfold ncmLoop at h ⊢
    generalize push (datagram ntb p) s = x at h
    obtain ⟨_ | _, t⟩ := x
    · rfl
    · generalize advance ntb p = y at h
      obtain ⟨reads, q | _ | _⟩ := y
      · exact ih h (by omega)
      · rfl
      · rfl

def recording (push : Bytes → τ → Bool × τ) (frame : Bytes) (x : τ × List Bytes) : Bool × (τ × List Bytes) :=
  match push frame x.1 with
  | (false, s) => (false, s, x.2)
  | (true, s) => (true, s, frame :: x.2)

lemma ncmLoop_recording (push : Bytes → τ → Bool × τ) (ntb : Mem) : ∀ (fuel : ℕ) (p : Place) (log : List Access) (s : τ) (frames : List Bytes),
    ∃ frames', ncmLoop (recording push) ntb fuel p log (s, frames) =
      ((ncmLoop push ntb fuel p log s).1, (ncmLoop push ntb fuel p log s).2, frames') := by
  intro fuel
  induction fuel with
  | zero =>
    intro p log s frames
    exact ⟨frames, rfl⟩
  | succ fuel ih =>
    intro p log s frames
    unfold ncmLoop recording
    generalize push (datagram ntb p) s = x
    obtain ⟨_ | _, t⟩ := x
    · exact ⟨frames, rfl⟩
    · generalize advance ntb p = y
      obtain ⟨reads, q | _ | _⟩ := y
      · exact ih q _ t _
      · exact ⟨_, rfl⟩
      · exact ⟨_, rfl⟩

/-- The way through a block ends when no more than `limit` frames have been accepted, however much fuel there is. -/
def EndsWithin (limit : ℕ) (push : Bytes → τ → Bool × τ) (ntb : Mem) (s : τ) : Prop :=
  ∃ r log t frames, r ≠ Parsed.running ∧ frames.length ≤ limit ∧ ∀ fuel, limit < fuel →
    ncmParse push ntb fuel s = ((r, log), t) ∧ ncmParse (recording push) ntb fuel (s, []) = ((r, log), t, frames)

lemma endsWithin_of_loop {limit : ℕ} {s : τ} (hleft : ∀ p log, (ncmLoop push ntb (limit + 1) p log s).1.1 ≠ .running)
    (hfew : (ncmParse (recording push) ntb (limit + 1) (s, [])).2.2.length ≤ limit) : EndsWithin limit push ntb s := by
  unfold EndsWithin
  unfold ncmParse at hfew ⊢
  by_cases hsig : ntb.dword 0 ≠ ncmNthSig
  · exact ⟨.invalid, [(0, 4)], s, [], nofun, Nat.zero_le _, fun fuel _ => by rw [if_pos hsig, if_pos hsig]; exact ⟨rfl, rfl⟩⟩
  rw [if_neg hsig] at hfew
  generalize enterNdp ntb (ntb.word 10) = y at hfew
  obtain ⟨reads, p | _ | _⟩ := y
  · obtain ⟨frames, hrec⟩ := ncmLoop_recording push ntb (limit + 1) p (reads ++ [(10, 2), (0, 4)]) s []
    have hend := hleft p (reads ++ [(10, 2), (0, 4)])
    have hend' : (ncmLoop (recording push) ntb (limit + 1) p (reads ++ [(10, 2), (0, 4)]) (s, [])).1.1 ≠ .running := by
      rw [hrec]
      exact hend
    have hmore := fun fuel (hlt : limit < fuel) => ncmLoop_more hend hlt
    have hmore' := fun fuel (hlt : limit < fuel) => ncmLoop_more hend' hlt
    dsimp only at hfew
    rw [hrec] at hfew hmore'
    generalize ncmLoop push ntb (limit + 1) p (reads ++ [(10, 2), (0, 4)]) s = x at hend hfew hmore hmore'
    obtain ⟨⟨r, log⟩, t⟩ := x
    refine ⟨r, log, t, frames, hend, hfew, fun fuel hlt => ?_⟩
    rw [if_neg hsig, if_neg hsig]
    exact ⟨hmore fuel hlt, hmore' fuel hlt⟩
  · exact ⟨.invalid, _, s, [], nofun, Nat.zero_le _, fun fuel _ => by rw [if_neg hsig, if_neg hsig]; exact ⟨rfl, rfl⟩⟩
  · exact ⟨.invalid, _, s, [], nofun, Nat.zero_le _, fun fuel _ => by rw [if_neg hsig, if_neg hsig]; exact ⟨rfl, rfl⟩⟩

end Loops

variable {E : Env Driver} {s : Sys Driver} {ring : Option ℕ} {ntb : Mem}

lemma recording_pushFrame {i : ℕ} {frame : Bytes} {x : Sys Driver × List Bytes} (hn : frame.length < 65536)
    (hx : RxRing (x.1.buf i) ∧ 3 * x.2.length ≤ (x.1.buf i).len) :
    RxRing ((recording (ethRingPushFrame E (some i)) frame x).2.1.buf i) ∧
      3 * (recording (ethRingPushFrame E (some i)) frame x).2.2.length ≤
        ((recording (ethRingPushFrame E (some i)) frame x).2.1.buf i).len := by
  have hkept := rx_pushFrame (E := E) hx.1 hn
  have hle := pushFrame_le (E := E) hx.1 hn
  unfold recording
  generalize hpush : ethRingPushFrame E (some i) frame x.1 = y at hkept hle
  obtain ⟨_ | _, t⟩ := y
  · exact ⟨hkept, hx.2.trans hle⟩
  · obtain ⟨hne, hlen⟩ := pushFrame_len hx.1 hn hpush
    have hpos := length_pos_iff.2 hne
    refine ⟨hkept, ?_⟩
    rw [hlen, length_cons]
    omega

lemma pushFrame_endsWithin (hring : ∀ i, ring = some i → RxRing (s.buf i)) : EndsWithin 682 (ethRingPushFrame E ring) ntb s := by
  cases ring with
  | none =>
    refine endsWithin_of_loop (fun p log => nofun) ?_
    have hnone := ncmParse_inv (f := recording (ethRingPushFrame E none)) (P := fun x => x.2 = []) (fun _ _ _ hx => hx) ntb (682 + 1)
      (s := (s, [])) rfl
    rw [hnone]
    exact Nat.zero_le _
  | some i =>
    have hrx := hring i rfl
    refine endsWithin_of_loop (fun p log => ncmLoop_returns ntb 683 p log hrx ?_) ?_
    · have hmax : rxRingMaxSize = 2048 := rfl
      omega
    · have hinv := ncmParse_inv (f := recording (ethRingPushFrame E (some i)))
        (P := fun x => RxRing (x.1.buf i) ∧ 3 * x.2.length ≤ (x.1.buf i).len) (fun _ _ hn hx => recording_pushFrame hn hx) ntb (682 + 1)
        (s := (s, [])) ⟨hrx, Nat.zero_le _⟩
      have hlen := hinv.1.len_le
      omega

/-- **Every block comes to an end.**  The ring of a device is a receive ring, in every state of every run of the driver; and
whatever is in the buffer, in such a ring and behind the allocator, the loops of `ncm_receive_callback` are left, and no more
than 682 frames have gone into the ring. -/
theorem ncm_blocks_end (structSize : ℕ) (net : Net Driver) (hnet : net.Aside (ethEnv structSize)) :
    (∀ (s₀ s : Sys Driver) (events : List Event), Starting s₀ →
      run (step (ethEnv structSize) net) s₀ events = some s → ∀ d i, s.world.ringOf d = some i → RxRing (s.buf i)) ∧
    ∀ (E : Env Driver) (d : ℕ) (dev : EthDevice) (s : Sys Driver), (∀ i, dev.rxRing = some i → RxRing (s.buf i)) →
      (∀ ok transferred, ∃ t, ncmReceiveCallback E d dev ok transferred s = some t) ∧
      EndsWithin 682 (ethRingPushFrame E dev.rxRing) dev.rxBuf (onWorld (clearRetries .ncm) s) := by
  refine ⟨fun s₀ s events hstart h d i hring => ?_, fun E d dev s hring => ?_⟩
  · have hsane : Sane s := run_inv Sane (fun _ _ _ hs hstep => hs.step hnet hstep) (Sane.start hstart) h
    exact (hsane.rings.ring d i hring).1
  · have hends : EndsWithin 682 (ethRingPushFrame E dev.rxRing) dev.rxBuf (onWorld (clearRetries .ncm) s) :=
      pushFrame_endsWithin hring
    refine ⟨fun ok transferred => ?_, hends⟩
    obtain ⟨r, log, t, frames, hr, -, hparse⟩ := hends
    unfold ncmReceiveCallback
    split_ifs
    · exact ⟨_, rfl⟩
    · exact ⟨_, rfl⟩
    · rw [(hparse ncmFuel (by decide)).1]
      cases r with
      | running => exact absurd rfl hr
      | invalid => exact ⟨t, rfl⟩
      | parsed => exact ⟨_, rfl⟩

def circularBlock : Mem := Mem.ofBytes (nthBytes 0 64 12 ++ (le32 ncmNdpSig0 ++ (le16 16 ++ (le16 12 ++ (le16 64 ++ (le16 1 ++ le16 0))))))

theorem ncm_blocks_end_circular : ∃ t, createRxRing (ethEnv 48) (boot 32768 plenty) = (some 0, t) ∧
    nextNdpIndex circularBlock 12 = 12 ∧
    EndsWithin 682 (ethRingPushFrame (ethEnv 48) (some 0)) circularBlock (onWorld (clearRetries .ncm) t) := by
  obtain ⟨t, ht⟩ : ∃ t, createRxRing (ethEnv 48) (boot 32768 plenty) = (some 0, t) := ⟨_, rfl⟩
  refine ⟨t, ht, by decide, ((ncm_blocks_end 48 idleNet (idleNet_aside 48)).2 (ethEnv 48) 0
    { type := .ncm, num := 0, rxRing := some 0, rxBuf := circularBlock } t fun i hi => ?_).2⟩
  cases hi
  exact (createRxRing_rxRing ht).1

/-! ### Reading within a block -/

section Confined

variable {T used : ℕ} {p q : Place} {log : List Access}

/-- The ring takes the datagram: with `used` bytes in it there is room for the record. -/
def Fits (ntb : Mem) (used : ℕ) (p : Place) : Prop :=
  datagramLen ntb p ≠ 0 ∧ used + (datagramLen ntb p + 2) ≤ rxRingMaxSize

/-- The entry `p` of the tables is come to when the ring takes the datagrams before it, which are `used` bytes in it. -/
inductive Listed (ntb : Mem) : ℕ → Place → Prop
  | first (hnth : ntb.dword 0 = ncmNthSig) (hndp : ntb.dword (ntb.word 10) = ncmNdpSig0) : Listed ntb 0 ⟨ntb.word 10, 0⟩
  | next {used : ℕ} {p : Place} (h : Listed ntb used p) (hfits : Fits ntb used p) (hnull : ¬ IsNull ntb p.next) :
      Listed ntb (used + (datagramLen ntb p + 2)) p.next
  | chain {used : ℕ} {p : Place} (h : Listed ntb used p) (hfits : Fits ntb used p) (hnull : IsNull ntb p.next)
      (hnext : nextNdpIndex ntb p.ndp ≠ 0) (hndp : ntb.dword (nextNdpIndex ntb p.ndp) = ncmNdpSig0) :
      Listed ntb (used + (datagramLen ntb p + 2)) ⟨nextNdpIndex ntb p.ndp, 0⟩

/-- The headers, the tables and the datagrams of a block are within its first `T` bytes, as far as the ring takes them. -/
structure Inside (ntb : Mem) (T : ℕ) : Prop where
  signature : 4 ≤ T
  nth : ntb.dword 0 = ncmNthSig → 12 ≤ T ∧ ntb.word 10 + 4 ≤ T
  entry : ∀ used p, Listed ntb used p → p.entry + 4 ≤ T
  datagram : ∀ used p, Listed ntb used p → Fits ntb used p → datagramIndex ntb p + datagramLen ntb p ≤ T
  /-- the entry behind one with a datagram: of a null one only the index may be there -/
  behind : ∀ used p, Listed ntb used p → Fits ntb used p →
    p.next.entry + 2 ≤ T ∧ (datagramIndex ntb p.next ≠ 0 → p.next.entry + 4 ≤ T)
  chain : ∀ used p, Listed ntb used p → Fits ntb used p → IsNull ntb p.next → nextNdpIndex ntb p.ndp ≠ 0 →
    nextNdpIndex ntb p.ndp + 4 ≤ T

lemma Inside.advance (h : Inside ntb T) (hp : Listed ntb used p) (hfits : Fits ntb used p) :
    Within T (advance ntb p).1 ∧ ∀ q, (advance ntb p).2 = .entry q → Listed ntb (used + (datagramLen ntb p + 2)) q := by
  obtain ⟨h2, h4⟩ := h.behind used p hp hfits
  have hentry := h.entry used p hp
  -- from the end of the table
  have hleave : IsNull ntb p.next → Within T (leaveNdp ntb p.ndp).1 ∧
      ∀ q, (leaveNdp ntb p.ndp).2 = .entry q → Listed ntb (used + (datagramLen ntb p + 2)) q := by
    intro hnull
    have h6 : p.ndp + 6 + 2 ≤ T := by
      unfold Place.entry at hentry
      omega
    unfold leaveNdp enterNdp
    by_cases hn : nextNdpIndex ntb p.ndp = 0
    · rw [if_pos hn]
      exact ⟨by simpa [Within] using h6, by simp⟩
    · rw [if_neg hn]
      refine ⟨?_, fun q hq => ?_⟩
      · simpa [Within] using ⟨h.chain used p hp hfits hnull hn, h6⟩
      · split_ifs at hq with hsig
        cases hq
        exact .chain hp hfits hnull hn hsig
  unfold Eth.advance
  simp only
  split_ifs with hi hl
  · obtain ⟨hw, hq⟩ := hleave (.inl hi)
    refine ⟨within_append.2 ⟨hw, ?_⟩, hq⟩
    simpa [Within] using h2
  · obtain ⟨hw, hq⟩ := hleave (.inr hl)
    have := h4 hi
    refine ⟨within_append.2 ⟨hw, ?_⟩, hq⟩
    simpa [Within] using ⟨this, h2⟩
  · have := h4 hi
    refine ⟨by simpa [Within] using ⟨this, h2⟩, ?_⟩
    rintro q hq
    cases hq
    exact .next hp hfits fun hnull => hnull.elim hi hl

lemma length_datagram (ntb : Mem) (p : Place) : (datagram ntb p).length = datagramLen ntb p := Mem.length_read ..

/-- The pushes that a ring with `used` bytes or more accepts fit in: `I used` says of a state that it has them. -/
def Bounded {τ : Type} (push : Bytes → τ → Bool × τ) (I : ℕ → τ → Prop) : Prop :=
  ∀ used data s t, data.length < 65536 → I used s → push data s = (true, t) →
    data ≠ [] ∧ used + (data.length + 2) ≤ rxRingMaxSize ∧ I (used + (data.length + 2)) t

lemma Inside.ncmLoop {τ : Type} {push : Bytes → τ → Bool × τ} {I : ℕ → τ → Prop} (h : Inside ntb T) (hpush : Bounded push I) :
    ∀ {fuel used : ℕ} {p : Place} {log : List Access} {s : τ}, Listed ntb used p → I used s → Within T log →
      Within T (ncmLoop push ntb fuel p log s).1.2 := by
  intro fuel
  induction fuel with
  | zero =>
    intro used p log s _ _ hlog
    exact hlog
  | succ fuel ih =>
    intro used p log s hp hs hlog
    have hentry := h.entry used p hp
    have hlog' : Within T ((p.entry, 4) :: log) := within_cons.2 ⟨fun _ => hentry, hlog⟩
    unfold Eth.ncmLoop
    generalize hpushed : push (Eth.datagram ntb p) s = x
    obtain ⟨_ | _, t⟩ := x
    · refine within_cons.2 ⟨fun _ => ?_, hlog'⟩
      unfold Place.entry at hentry
      omega
    · obtain ⟨hne, hroom, ht⟩ := hpush used _ s t (length_datagram_lt ntb p) hs hpushed
      rw [length_datagram] at hroom ht
      have hfits : Fits ntb used p :=
        ⟨fun h0 => hne (eq_nil_of_length_eq_zero ((length_datagram ntb p).trans h0)), hroom⟩
      obtain ⟨hreads, hnext⟩ := h.advance hp hfits
      have hall : Within T ((Eth.advance ntb p).1 ++ (datagramIndex ntb p, datagramLen ntb p) :: (p.entry, 4) :: log) :=
        within_append.2 ⟨hreads, within_cons.2 ⟨fun _ => h.datagram used p hp hfits, hlog'⟩⟩
      generalize Eth.advance ntb p = y at hnext hall
      obtain ⟨reads, _ | _ | _⟩ := y
      · exact ih (hnext _ rfl) ht hall
      · exact hall
      · exact hall

lemma Inside.ncmParse {τ : Type} {push : Bytes → τ → Bool × τ} {I : ℕ → τ → Prop} {s : τ} (h : Inside ntb T)
    (hpush : Bounded push I) (hs : I 0 s) (fuel : ℕ) : Within T (ncmParse push ntb fuel s).1.2 := by
  unfold Eth.ncmParse enterNdp
  by_cases hnth : ntb.dword 0 = ncmNthSig
  · rw [if_neg (not_not.2 hnth)]
    obtain ⟨h1, h2⟩ := h.nth hnth
    have hlog : Within T [(ntb.word 10, 4), (10, 2), (0, 4)] := by
      simpa [Within] using ⟨h2, h1, h.signature⟩
    split_ifs with hndp
    · exact h.ncmLoop hpush (.first hnth hndp) hs hlog
    · exact hlog
  · rw [if_pos hnth]
    simpa [Within] using h.signature

lemma pushFrame_bounded (E : Env Driver) (i : ℕ) :
    Bounded (ethRingPushFrame E (some i)) fun used s => RxRing (s.buf i) ∧ used ≤ (s.buf i).len := by
  rintro used data s t hn ⟨hrx, hle⟩ hpush
  obtain ⟨hne, hlen⟩ := pushFrame_len hrx hn hpush
  have hrx' := rx_pushFrame (E := E) hrx hn
  rw [hpush] at hrx'
  have hmax : (t.buf i).len ≤ rxRingMaxSize := hrx'.len_le
  exact ⟨hne, by omega, hrx', by omega⟩

/-! ### A ring that takes what fits -/

/-- The pushes of a ring that takes every frame it has room for: its state is how many bytes are in it. -/
def takeFitting (data : Bytes) (used : ℕ) : Bool × ℕ :=
  if data ≠ [] ∧ used + (data.length + 2) ≤ rxRingMaxSize then (true, used + (data.length + 2)) else (false, used)

lemma Fits.taken (h : Fits ntb used p) : takeFitting (datagram ntb p) used = (true, used + (datagramLen ntb p + 2)) := by
  have hne : datagram ntb p ≠ [] := fun hempty => h.1 ((length_datagram ntb p).symm.trans (congrArg List.length hempty))
  rw [takeFitting, length_datagram, if_pos ⟨hne, h.2⟩]

lemma Listed.reached (h : Listed ntb used p) :
    ∃ n log, ∀ fuel, ncmParse takeFitting ntb (n + fuel) 0 = ncmLoop takeFitting ntb fuel p log used := by
  -- one turn further
  have hturn : ∀ {used n : ℕ} {p q : Place} {log : List Access}, Fits ntb used p → (advance ntb p).2 = .entry q →
      (∀ fuel, ncmParse takeFitting ntb (n + fuel) 0 = ncmLoop takeFitting ntb fuel p log used) →
      ∃ n log, ∀ fuel, ncmParse takeFitting ntb (n + fuel) 0 =
        ncmLoop takeFitting ntb fuel q log (used + (datagramLen ntb p + 2)) := by
    intro used n p q log hfits hq hloop
    refine ⟨n + 1, (advance ntb p).1 ++ (datagramIndex ntb p, datagramLen ntb p) :: (p.entry, 4) :: log, fun fuel => ?_⟩
    rw [Nat.add_assoc, Nat.add_comm 1 fuel, hloop, ncmLoop_pushed hfits.taken]
    simp only [hq]
  induction h with
  | first hnth hndp =>
    refine ⟨0, [(ntb.word 10, 4), (10, 2), (0, 4)], fun fuel => ?_⟩
    unfold ncmParse enterNdp
    rw [if_neg (not_not.2 hnth), if_pos hndp, Nat.zero_add]
    rfl
  | next h hfits hnull ih =>
    obtain ⟨n, log, hloop⟩ := ih
    exact hturn hfits (advance_next hnull) hloop
  | chain h hfits hnull hnext hndp ih =>
    obtain ⟨n, log, hloop⟩ := ih
    refine hturn hfits ?_ hloop
    rw [(advance_null hnull).1, leaveNdp_next hnext, enterNdp, if_pos hndp]

lemma Listed.reads (h : ∀ fuel, Within T (ncmParse takeFitting ntb fuel 0).1.2) (hp : Listed ntb used p) : p.entry + 4 ≤ T ∧
    (Fits ntb used p → datagramIndex ntb p + datagramLen ntb p ≤ T ∧ Within T (advance ntb p).1) := by
  obtain ⟨n, log, hloop⟩ := hp.reached
  have hw := h (n + 1)
  rw [hloop] at hw
  by_cases hfits : Fits ntb used p
  · have hw' : Within T ((advance ntb p).1 ++ (datagramIndex ntb p, datagramLen ntb p) :: (p.entry, 4) :: log) := by
      rw [ncmLoop_pushed hfits.taken] at hw
      generalize advance ntb p = y at hw ⊢
      obtain ⟨reads, _ | _ | _⟩ := y
      · exact hw
      · exact hw
      · exact hw
    obtain ⟨hreads, hdata⟩ := within_append.1 hw'
    obtain ⟨hdata, hrest⟩ := within_cons.1 hdata
    exact ⟨(within_cons.1 hrest).1 (Nat.succ_pos _), fun _ => ⟨hdata (Nat.pos_of_ne_zero hfits.1), hreads⟩⟩
  · refine ⟨?_, fun h => absurd h hfits⟩
    have hpush : takeFitting (datagram ntb p) used = (false, used) := by
      rw [takeFitting, length_datagram]
      refine if_neg fun hand => hfits ⟨fun h0 => hand.1 ?_, hand.2⟩
      exact eq_nil_of_length_eq_zero ((length_datagram ntb p).trans h0)
    unfold ncmLoop at hw
    rw [hpush] at hw
    exact (within_cons.1 (within_cons.1 hw).2).1 (Nat.succ_pos _)

lemma Inside.of_within (h : ∀ fuel, Within T (Eth.ncmParse takeFitting ntb fuel 0).1.2) : Inside ntb T := by
  have h0 := h 0
  refine ⟨?_, ?_, fun used p hp => (hp.reads h).1, fun used p hp hfits => ((hp.reads h).2 hfits).1, ?_, ?_⟩
  · -- the signature is read in any case
    refine h0 (0, 4) ?_ (Nat.succ_pos _)
    unfold Eth.ncmParse
    split_ifs
    · simp
    · unfold enterNdp
      split_ifs <;> simp [Eth.ncmLoop]
  · intro hnth
    have hlog : Within T [(ntb.word 10, 4), (10, 2), (0, 4)] := by
      unfold Eth.ncmParse enterNdp at h0
      rw [if_neg (not_not.2 hnth)] at h0
      split_ifs at h0
      · exact h0
      · exact h0
    obtain ⟨h1, h2⟩ := within_cons.1 hlog
    exact ⟨(within_cons.1 h2).1 (Nat.succ_pos _), h1 (Nat.succ_pos _)⟩
  · intro used p hp hfits
    have hw := ((hp.reads h).2 hfits).2
    unfold Eth.advance at hw
    simp only at hw
    split_ifs at hw with hi hl
    · exact ⟨(within_append.1 hw).2 (p.next.entry, 2) (by simp) (Nat.succ_pos _), fun hne => absurd hi hne⟩
    · exact ⟨hw (p.next.entry, 2) (by simp) (Nat.succ_pos _), fun _ => hw (p.next.entry + 2, 2) (by simp) (Nat.succ_pos _)⟩
    · exact ⟨hw (p.next.entry, 2) (by simp) (Nat.succ_pos _), fun _ => hw (p.next.entry + 2, 2) (by simp) (Nat.succ_pos _)⟩
  · intro used p hp hfits hnull hnext
    refine ((hp.reads h).2 hfits).2 (nextNdpIndex ntb p.ndp, 4) ((advance_null hnull).2 _ ?_) (Nat.succ_pos _)
    rw [leaveNdp_next hnext]
    exact mem_cons_self ..

/-- A receive ring with `used` bytes in it whose growth is always served. -/
structure Roomy (i used : ℕ) (s : Sys Driver) : Prop where
  ring : RxRing (s.buf i)
  len : (s.buf i).len = used
  allocs : ∀ n, (s.allocs n).isSome
  maxHeap : s.cfg.maxHeap = 0

lemma Roomy.pushFrame {i : ℕ} {data : Bytes} (h : Roomy i used s) (hn : data.length < 65536) :
    (ethRingPushFrame E (some i) data s).1 = (takeFitting data used).1 ∧ ((takeFitting data used).1 = true →
      Roomy i (takeFitting data used).2 (ethRingPushFrame E (some i) data s).2) := by
  by_cases hfits : data ≠ [] ∧ used + (data.length + 2) ≤ rxRingMaxSize
  · have hready : Ready 3 ((s.buf i).len + (data.length + 2)) i s := by
      refine ⟨?_, .inr (.inr ⟨fun j _ => h.allocs _, ?_, .inl h.maxHeap⟩)⟩
      · rw [h.ring.maxCap, h.len]
        exact hfits.2
      · rw [h.maxHeap]
        decide
    obtain ⟨t, ht⟩ := pushFrame_taken h.ring hfits.1 hn hready
    have hb := pushFrame_beside (E := E) (i := i) data s
    have hrx := rx_pushFrame (E := E) h.ring hn
    rw [takeFitting, if_pos hfits]
    rw [ht] at hb hrx ⊢
    refine ⟨rfl, fun _ => ⟨hrx, ?_, fun n => ?_, hb.maxHeap.trans h.maxHeap⟩⟩
    · rw [(pushFrame_len h.ring hn ht).2, h.len]
    · rw [hb.allocs]
      exact h.allocs n
  · rw [takeFitting, if_neg hfits]
    refine ⟨?_, nofun⟩
    generalize hpush : ethRingPushFrame E (some i) data s = x
    obtain ⟨_ | _, t⟩ := x
    · rfl
    · obtain ⟨hne, hroom, -⟩ := pushFrame_bounded E i used data s t hn ⟨h.ring, h.len.ge⟩ hpush
      exact absurd ⟨hne, hroom⟩ hfits

lemma Roomy.ncmLoop {i : ℕ} : ∀ {fuel used : ℕ} {p : Place} {log : List Access} {s : Sys Driver}, Roomy i used s →
    (Eth.ncmLoop (ethRingPushFrame E (some i)) ntb fuel p log s).1 = (Eth.ncmLoop takeFitting ntb fuel p log used).1 := by
  intro fuel
  induction fuel with
  | zero => exact fun _ => rfl
  | succ fuel ih =>
    intro used p log s h
    obtain ⟨hres, hnext⟩ := h.pushFrame (length_datagram_lt ntb p)
    unfold Eth.ncmLoop
    generalize ethRingPushFrame E (some i) (datagram ntb p) s = x at hres hnext
    generalize takeFitting (datagram ntb p) used = y at hres hnext
    obtain ⟨ok, t⟩ := x
    obtain ⟨ok', used'⟩ := y
    cases hres
    cases ok with
    | false => rfl
    | true =>
      generalize Eth.advance ntb p = z
      obtain ⟨reads, q | _ | _⟩ := z
      · exact ih (hnext rfl)
      · rfl
      · rfl

lemma Roomy.ncmParse {i : ℕ} (h : Roomy i 0 s) (fuel : ℕ) :
    (Eth.ncmParse (ethRingPushFrame E (some i)) ntb fuel s).1 = (Eth.ncmParse takeFitting ntb fuel 0).1 := by
  unfold Eth.ncmParse
  split_ifs
  · rfl
  · generalize enterNdp ntb (ntb.word 10) = y
    obtain ⟨reads, q | _ | _⟩ := y
    · exact h.ncmLoop
    · rfl
    · rfl

lemma exists_roomy : ∃ t, Roomy 0 0 t := by
  obtain ⟨t, ht⟩ : ∃ t, createRxRing (ethEnv 48) (boot 0 plenty) = (some 0, t) := ⟨_, rfl⟩
  obtain ⟨hrx, hq⟩ := createRxRing_rxRing ht
  have hlen := congrArg List.length hq
  rw [length_queue] at hlen
  refine ⟨t, hrx, hlen, fun n => ?_, ?_⟩
  · cases ht
    rfl
  · cases ht
    rfl

/-- **The parser is confined to the received bytes exactly for blocks that lie within them** as far as a receive ring can take
their datagrams: for every state of the ring, and however often the loops have turned. -/
theorem ncm_reads_confined (ntb : Mem) (T : ℕ) :
    (∀ (E : Env Driver) (ring : Option ℕ) (s : Sys Driver), (∀ i, ring = some i → RxRing (s.buf i)) →
      ∀ fuel, Within T (ncmParse (ethRingPushFrame E ring) ntb fuel s).1.2) ↔ Inside ntb T := by
  constructor
  · intro h
    obtain ⟨t, ht⟩ := exists_roomy
    refine .of_within fun fuel => ?_
    rw [← ht.ncmParse]
    exact h (ethEnv 48) (some 0) t (fun i hi => by cases hi; exact ht.ring) fuel
  · intro h E ring s hring fuel
    cases ring with
    | none =>
      refine h.ncmParse (I := fun _ _ => True) (fun used data u t _ _ hpush => ?_) trivial fuel
      cases hpush
    | some i => exact h.ncmParse (pushFrame_bounded E i) ⟨hring i rfl, Nat.zero_le _⟩ fuel

end Confined

def strayBlock : Mem :=
  Mem.ofBytes (nthBytes 0 28 12 ++ (le32 ncmNdpSig0 ++ (le16 16 ++ (le16 0 ++ (le16 100 ++ (le16 50 ++ (le16 0 ++ le16 0)))))))

/-- **Bytes behind the block are read**, and pushed into the ring of the device. -/
theorem outside_read : ∃ t, createRxRing plainEnv (started 0 plenty) = (some 0, t) ∧
      (ncmParse (ethRingPushFrame plainEnv (some 0)) strayBlock 10 t).1.1 = .parsed ∧
      (100, 50) ∈ (ncmParse (ethRingPushFrame plainEnv (some 0)) strayBlock 10 t).1.2 ∧
      ¬ Within 28 (ncmParse (ethRingPushFrame plainEnv (some 0)) strayBlock 10 t).1.2 :=
  ⟨_, rfl, by decide +kernel, by decide +kernel, by decide +kernel⟩

end LwftpCe.Eth
