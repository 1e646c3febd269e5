import LwftpCe.Lwftp.Segments

/-!
# The passive reply

What `lwftp_control_process` does with a 227: `lwftp_data_open` reads six numbers behind the first parenthesis of the
buffer, whatever stands between them, and its result is ignored.
-/

namespace LwftpCe.Lwftp

open Lib List

variable {K U : Type} {c : Caller K U} {s : Session K U} {m : Bytes} {x : Ip × ℕ}
  {t rest : Bytes} {n : ℕ} {vs : List ℕ} {v : Verb} {q : Pbuf}

/-! ### Addresses in a text -/

def IsNumber (d : Bytes) : Prop := d ≠ [] ∧ (∀ x ∈ d, isDigit x = true) ∧ decimal d ≤ 255

def IsTuple (t : Bytes) (x : Ip × ℕ) : Prop :=
  ∃ h₁ h₂ h₃ h₄ p₁ p₂, (∀ d ∈ [h₁, h₂, h₃, h₄, p₁, p₂], IsNumber d) ∧
    t = 40 :: (h₁ ++ 44 :: (h₂ ++ 44 :: (h₃ ++ 44 :: (h₄ ++ 44 :: (p₁ ++ 44 :: (p₂ ++ [41])))))) ∧
    x = (⟨UInt8.ofNat (decimal h₁), UInt8.ofNat (decimal h₂), UInt8.ofNat (decimal h₃), UInt8.ofNat (decimal h₄)⟩,
      256 * decimal p₁ + decimal p₂)

def HasTuple (text : Bytes) (x : Ip × ℕ) : Prop := ∃ t, t <:+: text ∧ IsTuple t x

/-- `n` numbers as `strtoul` reads them, each one byte behind the end of the one before, and what is left. -/
def Numbers : ℕ → Bytes → List ℕ → Bytes → Prop
  | 0, m, vs, rest => vs = [] ∧ rest = m
  | n + 1, m, vs, rest => ∃ v vs' m', vs = v :: vs' ∧ strtoul m.tail = (v, m') ∧ Numbers n m' vs' rest

/-- The six numbers behind the first parenthesis of the string, with a parenthesis behind them, taken as an address. -/
def FirstSix (m : Bytes) (x : Ip × ℕ) : Prop :=
  ∃ pre m' a b c d hi lo rest, m = pre ++ 40 :: m' ∧ 40 ∉ pre ∧ 0 ∉ pre ∧
    Numbers 6 (40 :: m') [a, b, c, d, hi, lo] (41 :: rest) ∧
    x = (⟨UInt8.ofNat a, UInt8.ofNat b, UInt8.ofNat c, UInt8.ofNat d⟩, hi * 256 % 65536 ||| lo % 256)

/-! ### What `lwftp_data_open` reads -/

lemma strchr_eq_some {x : UInt8} : strchr x m = some t ↔ ∃ pre m', m = pre ++ x :: m' ∧ x ∉ pre ∧ 0 ∉ pre ∧ t = x :: m' := by
  induction m with
  | nil =>
    refine ⟨nofun, ?_⟩
    rintro ⟨pre, m', h, -⟩
    exact absurd h.symm (by simp)
  | cons y m ih =>
    unfold strchr
    constructor
    · intro h
      split_ifs at h with hx h0
      · cases h
        exact ⟨[], m, by rw [hx]; rfl, not_mem_nil, not_mem_nil, by rw [hx]⟩
      · obtain ⟨pre, m', rfl, hpre, hnul, ht⟩ := ih.1 h
        refine ⟨y :: pre, m', rfl, ?_, ?_, ht⟩
        · exact not_mem_cons_of_ne_of_not_mem (Ne.symm hx) hpre
        · exact not_mem_cons_of_ne_of_not_mem (Ne.symm h0) hnul
    · rintro ⟨pre, m', hm, hpre, hnul, rfl⟩
      cases pre with
      | nil =>
        cases hm
        exact if_pos rfl
      | cons z pre =>
        cases hm
        rw [if_neg (ne_of_not_mem_cons hpre).symm, if_neg (ne_of_not_mem_cons hnul).symm]
        exact ih.2 ⟨pre, m', rfl, not_mem_of_not_mem_cons hpre, not_mem_of_not_mem_cons hnul, rfl⟩

lemma numbers_cons {v : ℕ} {m' : Bytes} {w : ℕ} (h : strtoul m.tail = (w, m')) :
    Numbers (n + 1) m (v :: vs) rest ↔ v = w ∧ Numbers n m' vs rest := by
  constructor
  · rintro ⟨v, vs, m', ⟨⟩, h', hvs⟩
    cases h.symm.trans h'
    exact ⟨rfl, hvs⟩
  · rintro ⟨rfl, hvs⟩
    exact ⟨v, vs, m', rfl, h, hvs⟩

lemma pasvAddress_eq_some {ptr : Bytes} : pasvAddress ptr = some x ↔
    ∃ a b c d hi lo rest, Numbers 6 ptr [a, b, c, d, hi, lo] (41 :: rest) ∧
      x = (⟨UInt8.ofNat a, UInt8.ofNat b, UInt8.ofNat c, UInt8.ofNat d⟩, hi * 256 % 65536 ||| lo % 256) := by
  unfold pasvAddress
  rcases h1 : strtoul ptr.tail with ⟨v1, m1⟩
  rcases h2 : strtoul m1.tail with ⟨v2, m2⟩
  rcases h3 : strtoul m2.tail with ⟨v3, m3⟩
  rcases h4 : strtoul m3.tail with ⟨v4, m4⟩
  rcases h5 : strtoul m4.tail with ⟨v5, m5⟩
  rcases h6 : strtoul m5.tail with ⟨v6, m6⟩
  simp only [h2, h3, h4, h5, h6, numbers_cons h1, numbers_cons h2, numbers_cons h3, numbers_cons h4, numbers_cons h5,
    numbers_cons h6]
  constructor
  · intro h
    split_ifs at h with hend
    cases h
    obtain ⟨rest, hrest⟩ := List.head?_eq_some_iff.1 hend
    exact ⟨v1, v2, v3, v4, v5, v6, rest, ⟨rfl, rfl, rfl, rfl, rfl, rfl, rfl, hrest.symm⟩, rfl⟩
  · rintro ⟨_, _, _, _, _, _, rest, ⟨rfl, rfl, rfl, rfl, rfl, rfl, -, rfl⟩, rfl⟩
    rfl

lemma address_eq_some : address m = some x ↔ FirstSix m x := by
  unfold address FirstSix
  rw [Option.bind_eq_some_iff]
  simp only [strchr_eq_some, pasvAddress_eq_some]
  constructor
  · rintro ⟨t, ⟨pre, m', hm, hpre, hnul, rfl⟩, a, b, c, d, hi, lo, rest, h, hx⟩
    exact ⟨pre, m', a, b, c, d, hi, lo, rest, hm, hpre, hnul, h, hx⟩
  · rintro ⟨pre, m', a, b, c, d, hi, lo, rest, hm, hpre, hnul, h, hx⟩
    exact ⟨_, ⟨pre, m', hm, hpre, hnul, rfl⟩, a, b, c, d, hi, lo, rest, h, hx⟩

lemma numbers_number {d r : Bytes} {y z : UInt8} (hd : IsNumber d) (hy : isDigit y = false)
    (h : Numbers n (y :: rest) vs r) : Numbers (n + 1) (z :: (d ++ y :: rest)) (decimal d :: vs) r := by
  refine ⟨_, _, _, rfl, strtoul_digits hd.1 hd.2.1 ?_ ?_, h⟩
  · rintro x ⟨⟩
    exact hy
  · have := hd.2.2
    unfold ulongMax
    omega

lemma firstSix_of_tuple {pre post : Bytes} (hpre : 40 ∉ pre) (hnul : 0 ∉ pre) (ht : IsTuple t x) : FirstSix (pre ++ t ++ post) x := by
  obtain ⟨h1, h2, h3, h4, p1, p2, hd, rfl, rfl⟩ := ht
  simp only [forall_mem_cons] at hd
  obtain ⟨n1, n2, n3, n4, n5, n6, -⟩ := hd
  refine ⟨pre, h1 ++ 44 :: (h2 ++ 44 :: (h3 ++ 44 :: (h4 ++ 44 :: (p1 ++ 44 :: (p2 ++ 41 :: post))))), decimal h1, decimal h2,
    decimal h3, decimal h4, decimal p1, decimal p2, post, ?_, hpre, hnul, ?_, ?_⟩
  · simp only [append_assoc, cons_append, nil_append]
  · refine numbers_number n1 rfl (numbers_number n2 rfl (numbers_number n3 rfl ?_))
    exact numbers_number n4 rfl (numbers_number n5 rfl (numbers_number n6 rfl ⟨rfl, rfl⟩))
  · have hlo := n6.2.2
    have hhi := n5.2.2
    rw [Nat.mod_eq_of_lt (show decimal p1 * 256 < 65536 by omega), Nat.mod_eq_of_lt (show decimal p2 < 256 by omega)]
    have hor := Nat.shiftLeft_add_eq_or_of_lt (show decimal p2 < 2 ^ 8 by omega) (decimal p1)
    rw [Nat.shiftLeft_eq] at hor
    rw [← hor, Nat.mul_comm]

lemma firstSix_of_hasTuple {text : Bytes} (hone : text.count 40 = 1) (hnul : 0 ∉ text) (h : HasTuple text x)
    (after : Bytes) : FirstSix (text ++ after) x := by
  obtain ⟨t, ⟨pre, post, rfl⟩, ht⟩ := h
  have hpre : 40 ∉ pre := by
    obtain ⟨h1, h2, h3, h4, p1, p2, -, rfl, -⟩ := ht
    rw [count_append, count_append, count_cons_self] at hone
    exact count_eq_zero.1 (by omega)
  rw [append_assoc (pre ++ t)]
  refine firstSix_of_tuple hpre (fun h0 => hnul ?_) ht
  simp [h0]

/-! ### What a reply leads to -/

def During (s s' : Session K U) (o : Obs K) : Prop := ∃ t, s'.trace = t ++ s.trace ∧ o ∈ t

lemma during_iff {s s' : Session K U} {t : List (Obs K)} (h : s'.trace = t ++ s.trace) (o : Obs K) : During s s' o ↔ o ∈ t := by
  constructor
  · rintro ⟨t', ht', ho⟩
    cases append_cancel_right (ht'.symm.trans h)
    exact ho
  · intro ho
    exact ⟨t, h, ho⟩

/-- What is asked of the step from `s` to `s'` at a 227 with this text: an address in it opens a connection to it, a text without
one opens none, and the transfer goes on only where the attempt to connect was started (`ok`). -/
structure PasvExact (ok : Bool) (text : Bytes) (s s' : Session K U) : Prop where
  connects : ∀ x, HasTuple text x → During s s' (.dataConnect x.1 x.2)
  refuses : (¬ ∃ x, HasTuple text x) → ∀ x : Ip × ℕ, ¬ During s s' (.dataConnect x.1 x.2)
  starts : (∃ v msgs, v ∈ [Verb.stor, .retr, .mlsd] ∧ During s s' (.send v msgs)) ∨ s'.controlState = s.targetState →
    ok = true ∧ ∃ x : Ip × ℕ, During s s' (.dataConnect x.1 x.2)

lemma trace_lwftpDataOpen {p : Pcb} (hp : s.dataPcb = some p) (q : Pbuf) : (lwftpDataOpen q s).trace =
    ((address q.mem).map fun x => Obs.dataConnect x.1 x.2).toList ++ .dataOpen (some p) :: s.trace := by
  unfold lwftpDataOpen address
  cases h : (strchr 40 q.mem).bind pasvAddress with
  | none => simp [Session.note, hp]
  | some x => simp [Session.note, Session.setLink, hp]

lemma trace_sendArg (v : Verb) (msgs : List Bytes) (f : Field) (s : Session K U) :
    ∃ t, (sendArg c v msgs f s).trace = t ++ s.trace ∧ ∀ ip port, Obs.dataConnect ip port ∉ t := by
  unfold sendArg
  split
  · exact ⟨[], rfl, fun _ _ => not_mem_nil⟩
  · exact ⟨[_], rfl, fun _ _ h => by cases mem_singleton.1 h⟩

lemma trace_transferCmd (ht : Transfer v s.targetState) :
    ∃ t, (transferCmd c s).trace = t ++ s.trace ∧ ∀ ip port, Obs.dataConnect ip port ∉ t := by
  generalize hst : s.targetState = st at ht
  cases ht <;>
    simp only [transferCmd, hst] <;>
    exact trace_sendArg _ _ _ s

lemma controlProcess_eq (hst : s.controlState = .pasvSent) (ht : Transfer v s.targetState)
    (hresp : response q = 227) (p : List Pbuf) :
    lwftpControlProcess c (q :: p) s = (transferCmd c (lwftpDataOpen q (readReply 227 s))).goto s.targetState := by
  have hreply : (s.note (.reply 227 s.controlState)).controlState = .pasvSent := hst
  have htarget : (lwftpDataOpen q (readReply 227 s)).targetState = s.targetState := lwftpDataOpen_targetState q _
  have hsame := (transferCmd_sent (c := c) (htarget ▸ ht)).2
  unfold lwftpControlProcess
  dsimp only
  rw [hresp]
  simp only [onReply, hreply, onPasv, if_pos]
  change controlEnd c _ ((transferCmd c (lwftpDataOpen q (readReply 227 s))).goto
    (transferCmd c (lwftpDataOpen q (readReply 227 s))).targetState) = _
  rw [hsame, htarget]
  generalize s.targetState = st at ht
  cases ht <;> rfl

lemma controlProcess_pasv (hwf : Wf s) (hst : s.controlState = .pasvSent) (hresp : response q = 227) (p : List Pbuf) :
    (lwftpControlProcess c (q :: p) s).controlState = s.targetState ∧
      ∀ x : Ip × ℕ, During s (lwftpControlProcess c (q :: p) s) (.dataConnect x.1 x.2) ↔ address q.mem = some x := by
  have hopening : s.controlState.opening = true := by rw [hst]; rfl
  obtain ⟨v, hv⟩ := hwf.target hopening
  obtain ⟨pcb, hpcb⟩ := Option.ne_none_iff_exists'.1 (hwf.live hopening)
  have htarget : (lwftpDataOpen q (readReply 227 s)).targetState = s.targetState := lwftpDataOpen_targetState q _
  obtain ⟨t, ht, hno⟩ := trace_transferCmd (htarget ▸ hv)
  rw [controlProcess_eq hst hv hresp p]
  refine ⟨rfl, fun x => ?_⟩
  have htrace : ((transferCmd c (lwftpDataOpen q (readReply 227 s))).goto s.targetState).trace =
      (t ++ (((address q.mem).map fun x => Obs.dataConnect x.1 x.2).toList ++
        [.dataOpen (some pcb), .reply 227 s.controlState])) ++ s.trace := by
    refine ht.trans ?_
    rw [trace_lwftpDataOpen (s := readReply 227 s) hpcb]
    simp [readReply, Session.note]
  rw [during_iff htrace]
  simp [hno]

/-- **Which passive replies are parsed and used as they should be.** -/
theorem pasv_exact_iff (hwf : Wf s) (hst : s.controlState = .pasvSent) {q : Pbuf} (hresp : response q = 227) (p : List Pbuf)
    (ok : Bool) : PasvExact ok q.payload s (lwftpControlProcess c (q :: p) s) ↔
      ok = true ∧ (∃ x, HasTuple q.payload x) ∧ ∃ x, FirstSix q.mem x ∧ ∀ y, HasTuple q.payload y → y = x := by
  obtain ⟨hstate, hconn⟩ := controlProcess_pasv hwf hst hresp p
  constructor
  · rintro ⟨hconnects, hrefuses, hstarts⟩
    obtain ⟨hok, x, hx⟩ := hstarts (.inr hstate)
    have hex : ∃ x, HasTuple q.payload x := by
      by_contra hno
      exact hrefuses hno x hx
    refine ⟨hok, hex, x, address_eq_some.1 ((hconn x).1 hx), fun y hy => ?_⟩
    exact Option.some.inj (((hconn y).1 (hconnects y hy)).symm.trans ((hconn x).1 hx))
  · rintro ⟨hok, hex, x, hfirst, huniq⟩
    have hx := (hconn x).2 (address_eq_some.2 hfirst)
    refine ⟨fun y hy => ?_, fun hno => absurd hex hno, fun _ => ⟨hok, x, hx⟩⟩
    rw [huniq y hy]
    exact hx

def pasvRun : List (Event K U) := loginRun ++ [.api (.retrieve (some 536)), line ⟨0, 536⟩ "200 ok\r\n"]

lemma wf_pasvRun : ∃ s : Session Unit Unit, run (step (idleCaller [])) (initial idleUser ()) pasvRun = some s ∧ Wf s ∧
    s.controlState = .pasvSent ∧ s.targetState = .retrSent :=
  ⟨_, rfl, (run_moves (idleCaller_lawful []) (wf_initial idleUser ()) (show run _ _ pasvRun = some _ from rfl)).2, rfl, rfl⟩

theorem pasv_exact_passive : ∃ s : Session Unit Unit, run (step (idleCaller [])) (initial idleUser ()) pasvRun = some s ∧
    PasvExact true (ascii "227 passive (10,0,0,1,4,210)\r\n") s
      (lwftpControlProcess (idleCaller []) [⟨ascii "227 passive (10,0,0,1,4,210)\r\n", []⟩] s) := by
  obtain ⟨s, hrun, hwf, hst, -⟩ := wf_pasvRun
  have htuple : HasTuple (ascii "227 passive (10,0,0,1,4,210)\r\n") (⟨10, 0, 0, 1⟩, 1234) := by
    refine ⟨ascii "(10,0,0,1,4,210)", by decide, ascii "10", ascii "0", ascii "0", ascii "1", ascii "4", ascii "210", ?_, rfl, rfl⟩
    unfold IsNumber
    decide +kernel
  have hfirst : ∀ y, HasTuple (ascii "227 passive (10,0,0,1,4,210)\r\n") y →
      FirstSix (ascii "227 passive (10,0,0,1,4,210)\r\n" ++ []) y :=
    fun y hy => firstSix_of_hasTuple (by decide) (by decide) hy []
  have hresp : response ⟨ascii "227 passive (10,0,0,1,4,210)\r\n", []⟩ = 227 := by decide
  refine ⟨s, hrun, (pasv_exact_iff hwf hst hresp [] true).2 ⟨rfl, ⟨_, htuple⟩, _, hfirst _ htuple, fun y hy => ?_⟩⟩
  exact Option.some.inj ((address_eq_some.2 (hfirst y hy)).symm.trans (address_eq_some.2 (hfirst _ htuple)))

/-- Without an address, RETR is sent all the same. -/
theorem pasv_without_address : ∃ s : Session Unit Unit, run (step (idleCaller [])) (initial idleUser ()) pasvRun = some s ∧
    ¬ PasvExact true (ascii "227 passive\r\n") s (lwftpControlProcess (idleCaller []) [⟨ascii "227 passive\r\n", []⟩] s) := by
  obtain ⟨s, hrun, hwf, hst, -⟩ := wf_pasvRun
  obtain ⟨hstate, hconn⟩ := controlProcess_pasv hwf hst
    (show response ⟨ascii "227 passive\r\n", []⟩ = 227 by decide) []
  refine ⟨s, hrun, fun h => ?_⟩
  obtain ⟨-, x, hx⟩ := h.starts (.inr hstate)
  have hnone : address (ascii "227 passive\r\n" ++ []) = none := by decide
  exact absurd (hnone.symm.trans ((hconn x).1 hx)) nofun

end LwftpCe.Lwftp
