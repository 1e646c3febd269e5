import LwftpCe.App.Listing
import LwftpCe.Lib.Lines
import Mathlib.Data.List.ReduceOption

/-!
# The listing, line by line

`ftp_ListDataSink` puts the lines of a listing together from the pieces that arrive, and passes each to
`ftp_AddRemoteFile`.  When `app.rxBuf` is full and the line goes on, it leaves its loop, and what is behind is lost: the end
of the line with it, if that is in the same piece.
-/

namespace LwftpCe.App

open Lib List

variable {V : Type} {a : AppT V} {b : Bytes}

def stripCr (l : Bytes) : Bytes := if l.getLast? = some 13 then l.dropLast else l

def addLine (a : AppT V) (l : Bytes) : AppT V := ftpAddRemoteFile { a with rxBuf := l ++ [0] }

def added (ls : List Bytes) (a : AppT V) : AppT V := ls.foldl addLine a

def SameRemote (a b : AppT V) : Prop := a.remoteFiles = b.remoteFiles ∧ a.total true = b.total true

def lines (stream : Bytes) : List Bytes := (stream.splitOn 10).dropLast

/-- Each line has been passed on in its turn, without its carriage return; of a line of more than 255 bytes, anything. -/
def LineByLine (hs ls : List Bytes) : Prop := List.Forall₂ (fun h l => l.length ≤ rxBufSize → h = stripCr l) hs ls

def Listed (a : AppT V) (stream : Bytes) (b : AppT V) : Prop :=
  ∃ hs, LineByLine hs (lines stream) ∧ SameRemote b (added hs a.clearRemote)

def handed (cs : List Bytes) : List Bytes := (assemble 10 rxBufSize cs []).1.map stripCr

/-! ### One line -/

lemma cstr_append_zero (s m : Bytes) : cstr (s ++ 0 :: m) = cstr s := by
  unfold cstr
  induction s with
  | nil => simp
  | cons x s ih =>
    by_cases hx : x = 0
    · simp [hx]
    · simpa [hx] using ih

lemma cstr_cstr (m : Bytes) : cstr (cstr m) = cstr m := cstr_of_nul_free (nul_notMem_cstr m)

lemma strchr_cstr {c : UInt8} (hc : c ≠ 0) (m : Bytes) :
    (strchr c m).map (fun n => cstr n.tail) = (strchr c (cstr m)).map fun n => cstr n.tail := by
  induction m with
  | nil => rfl
  | cons x m ih =>
    by_cases hx : x = 0
    · subst hx
      have hne : (0 : UInt8) ≠ c := Ne.symm hc
      simp [strchr, cstr, hne]
    · have hcons : cstr (x :: m) = x :: cstr m := by simp [cstr, hx]
      rw [hcons]
      by_cases hxc : x = c
      · simp [strchr, hxc, cstr_cstr]
      · simpa [strchr, hxc, hx] using ih

lemma SameRemote.trans {b c : AppT V} (h : SameRemote a b) (h' : SameRemote b c) : SameRemote a c :=
  ⟨h.1.trans h'.1, h.2.trans h'.2⟩

lemma SameRemote.ftpAddRemoteFile {b : AppT V} (h : SameRemote a b) (hb : cstr a.rxBuf = cstr b.rxBuf) :
    SameRemote (ftpAddRemoteFile a) (ftpAddRemoteFile b) := by
  obtain ⟨hf, ht⟩ := h
  have hname : (strchr 32 a.rxBuf).map (fun n => cstr n.tail) = (strchr 32 b.rxBuf).map fun n => cstr n.tail := by
    rw [strchr_cstr (by decide) a.rxBuf, strchr_cstr (by decide) b.rxBuf, hb]
  unfold App.ftpAddRemoteFile
  rw [hb]
  cases hx : strchr 32 a.rxBuf with
  | none =>
    rw [hx] at hname
    rw [Option.map_eq_none_iff.1 hname.symm]
    exact ⟨hf, ht⟩
  | some n =>
    rw [hx] at hname
    obtain ⟨n', hn', hnn⟩ := Option.map_eq_some_iff.1 hname.symm
    rw [hn']
    cases strstr (ascii "type=") (cstr b.rxBuf) with
    | none => exact ⟨hf, ht⟩
    | some t =>
      simp only [ht, hf, hnn]
      split_ifs
      · exact ⟨hf, ht⟩
      · exact ⟨rfl, ht⟩
      · exact ⟨rfl, by simp⟩

lemma SameRemote.added {b : AppT V} (h : SameRemote a b) (ls : List Bytes) : SameRemote (added ls a) (added ls b) := by
  induction ls generalizing a b with
  | nil => exact h
  | cons l ls ih => exact ih (SameRemote.ftpAddRemoteFile h rfl)

/-! ### The pieces -/

/-- `app.rxBuf` holds the beginning `b` of a line. -/
structure Holds (a : AppT V) (b : Bytes) : Prop where
  offset : a.rxOffset = b.length
  room : b.length ≤ rxBufSize
  array : a.rxBuf.length = rxBufSize + 2
  bytes : a.rxBuf.take b.length = b

lemma ftpAddRemoteFile_frame (a : AppT V) : ∃ l t, ftpAddRemoteFile a = { a with remoteFiles := l, total := t } := by
  cases h : accepted a with
  | none =>
    obtain ⟨l, hl, -⟩ := ftpAddRemoteFile_refused h
    exact ⟨l, a.total, hl⟩
  | some e => exact ⟨_, _, ftpAddRemoteFile_accepted h⟩

lemma Holds.terminate (h : Holds a b) :
    cstr (terminate a).rxBuf = cstr (stripCr b ++ [0]) ∧ (terminate a).rxBuf.length = rxBufSize + 2 := by
  obtain ⟨hoff, hroom, harr, hb⟩ := h
  have hlast : a.rxOffset ≠ 0 → (a.rxBuf.getD (a.rxOffset - 1) 0 = 13 ↔ b.getLast? = some 13) := by
    intro hne
    rw [hoff] at hne ⊢
    have hlt : b.length - 1 < a.rxBuf.length := by omega
    have hget : b[b.length - 1]? = a.rxBuf[b.length - 1]? := by
      conv_lhs => rw [← hb]
      rw [getElem?_take, hb, if_pos (by omega)]
    rw [getLast?_eq_getElem?, hget, getD_eq_getElem?_getD, getElem?_eq_getElem hlt]
    simp
  have hcut : ∀ n, n ≤ b.length → cstr (a.rxBuf.set n 0) = cstr (b.take n ++ [0]) := by
    intro n hn
    have htake : a.rxBuf.take n = b.take n := by
      conv_rhs => rw [← hb]
      rw [take_take, Nat.min_eq_left hn]
    rw [set_eq_take_append_cons_drop, if_pos (by omega), htake, cstr_append_zero, cstr_append_zero]
  unfold App.terminate stripCr
  simp only [length_set]
  refine ⟨?_, harr⟩
  by_cases hz : a.rxOffset = 0
  · have hnil : b = [] := eq_nil_of_length_eq_zero (hoff.symm.trans hz)
    subst hnil
    simpa [hz] using hcut 0 (Nat.zero_le _)
  · by_cases hcr : b.getLast? = some 13
    · rw [if_pos ⟨hz, (hlast hz).2 hcr⟩, if_pos hcr, hoff, hcut _ (Nat.sub_le _ _), dropLast_eq_take]
    · rw [if_neg fun hx => hcr ((hlast hz).1 hx.2), if_neg hcr, hoff, hcut _ le_rfl, take_length]

lemma Holds.endLine (h : Holds a b) : Holds (endLine a) [] ∧ SameRemote (endLine a) (addLine a (stripCr b)) := by
  obtain ⟨hstr, harr⟩ := h.terminate
  obtain ⟨l, t, hframe⟩ := ftpAddRemoteFile_frame (App.terminate a)
  constructor
  · refine ⟨rfl, Nat.zero_le _, ?_, rfl⟩
    unfold App.endLine
    rw [hframe]
    exact harr
  · exact SameRemote.ftpAddRemoteFile ⟨rfl, rfl⟩ hstr

lemma listBytes_feed (d : Bytes) (h : Holds a b) : Holds (listBytes d a) (feed 10 rxBufSize d b).2 ∧
    SameRemote (listBytes d a) (added ((feed 10 rxBufSize d b).1.map stripCr) a) := by
  induction d generalizing a b with
  | nil => exact ⟨h, rfl, rfl⟩
  | cons c d ih =>
    by_cases hc : c = 10
    · subst hc
      obtain ⟨hnext, hsame⟩ := h.endLine
      obtain ⟨hh, hr⟩ := ih hnext
      have hlist : listBytes (10 :: d) a = listBytes d (endLine a) := by simp [listBytes]
      refine ⟨hh, ?_⟩
      exact hr.trans (hsame.added _)
    · rcases Nat.lt_or_ge b.length rxBufSize with hlt | hge
      · have hlist : listBytes (c :: d) a =
            listBytes d { a with rxBuf := a.rxBuf.set a.rxOffset c, rxOffset := a.rxOffset + 1 } := by
          simp [listBytes, hc, h.offset, hlt]
        have hnext : Holds { a with rxBuf := a.rxBuf.set a.rxOffset c, rxOffset := a.rxOffset + 1 } (b ++ [c]) := by
          have harr := h.array
          refine ⟨by simp [h.offset], by simp; omega, by simpa using harr, ?_⟩
          have hset : (a.rxBuf.set b.length c).take (b.length + 1) = a.rxBuf.take b.length ++ [c] := by
            rw [set_eq_take_append_cons_drop, if_pos (by omega)]
            have hlen : (a.rxBuf.take b.length).length = b.length := by simp; omega
            rw [take_append, hlen]
            simp
          simpa [h.offset, h.bytes] using hset
        obtain ⟨hh, hr⟩ := ih hnext
        rw [hlist, feed_room hc hlt]
        refine ⟨hh, hr.trans (SameRemote.added ?_ _)⟩
        exact ⟨rfl, rfl⟩
      · have hlist : listBytes (c :: d) a = a := by simp [listBytes, hc, h.offset, Nat.not_lt.2 hge]
        rw [hlist, feed_full hc hge]
        exact ⟨h, rfl, rfl⟩

lemma listing_added (a : AppT V) (ds : List (Option Bytes)) :
    SameRemote (listing a ds) (added (handed ds.reduceOption) a.clearRemote) := by
  have key : ∀ (ds : List (Option Bytes)) (x : AppT V) (b : Bytes), Holds x b →
      SameRemote (ds.foldl (fun a d => ftpListDataSink d a) x)
        (added ((assemble 10 rxBufSize ds.reduceOption b).1.map stripCr) x) := by
    intro ds
    induction ds with
    | nil =>
      intro x b _
      exact ⟨rfl, rfl⟩
    | cons d ds ih =>
      intro x b hb
      cases d with
      | none => exact ih x b hb
      | some d =>
        obtain ⟨hh, hr⟩ := listBytes_feed d hb
        have hrest := (ih _ _ hh).trans (hr.added _)
        simp only [foldl_cons, reduceOption_cons_of_some, assemble, map_append]
        unfold added at hrest ⊢
        rw [foldl_append]
        exact hrest
  exact key ds _ [] ⟨rfl, Nat.zero_le _, by simp [AppT.clearRemote], rfl⟩

/-- **The listing depends on the stream only, if no long line ends in the middle of a piece.**  For all pieces that arrive:
the lines that reach `ftp_AddRemoteFile` are those of the stream, one by one, and make the list, exactly if the line feed
behind every line of more than 255 bytes is the first byte of its piece. -/
theorem listing_by_lines (a : AppT V) (ds : List (Option Bytes)) :
    (LineByLine (handed ds.reduceOption) (lines ds.reduceOption.flatten) ∧
      SameRemote (listing a ds) (added (handed ds.reduceOption) a.clearRemote) ↔
        InTime 10 rxBufSize [] ds.reduceOption) ∧
    (InTime 10 rxBufSize [] ds.reduceOption → Listed a ds.reduceOption.flatten (listing a ds)) := by
  have hlines : lines ds.reduceOption.flatten = linesOf 10 [] ds.reduceOption.flatten :=
    (linesOf_eq_splitOn [] _ (by simp)).symm
  have hadded := listing_added a ds
  have hby : InTime 10 rxBufSize [] ds.reduceOption → LineByLine (handed ds.reduceOption) (lines ds.reduceOption.flatten) := by
    intro h
    rw [hlines]
    refine forall₂_map_left_iff.2 ((assemble_oneEach h).imp fun x l hx hl => ?_)
    rw [hx hl]
  refine ⟨⟨?_, fun h => ⟨hby h, hadded⟩⟩, fun h => ⟨_, hby h, hadded⟩⟩
  rintro ⟨h, -⟩
  apply inTime_of_length
  have hlen := List.Forall₂.length_eq h
  rw [hlines] at hlen
  simpa [handed] using hlen

lemma addLine_total (a : AppT V) (l : Bytes) :
    (addLine a l).total true = a.total true ∨ (addLine a l).total true = uadd (a.total true) 1 := by
  unfold addLine
  cases h : accepted { a with rxBuf := l ++ [0] } with
  | none =>
    obtain ⟨_, hl, -⟩ := ftpAddRemoteFile_refused h
    rw [hl]
    exact .inl rfl
  | some e =>
    rw [ftpAddRemoteFile_accepted h]
    exact .inr (by simp)

def longThenDir : Bytes := List.replicate 256 120 ++ 10 :: (ascii "type=dir; A" ++ [10])

/-- **The directory behind a long line is lost** when both lines come in one piece. -/
theorem listing_loses_line : ¬ Listed ({ vars := () } : AppT Unit) longThenDir (listing { vars := () } [some longThenDir]) := by
  rintro ⟨hs, hby, -, htotal⟩
  have hlines : lines longThenDir = [replicate 256 120, ascii "type=dir; A"] := by decide +kernel
  have hzero : (listing ({ vars := () } : AppT Unit) [some longThenDir]).total true = 0 := by decide +kernel
  rw [hlines] at hby
  obtain ⟨h1, hs1, -, hby1, rfl⟩ := forall₂_cons_right_iff.1 hby
  obtain ⟨h2, hs2, hdir, hby2, rfl⟩ := forall₂_cons_right_iff.1 hby1
  obtain rfl := forall₂_nil_right_iff.1 hby2
  obtain rfl : h2 = ascii "type=dir; A" := hdir (by decide)
  -- whatever the first line has become, there is room for the second
  set b := addLine (AppT.clearRemote ({ vars := () } : AppT Unit)) h1
  have hle : b.total true ≤ 1 := by
    rcases addLine_total (AppT.clearRemote ({ vars := () } : AppT Unit)) h1 with h | h
    · exact h.le.trans (by decide)
    · exact h.le.trans (by decide)
  have hacc : accepted { b with rxBuf := ascii "type=dir; A" ++ [0] } = some (.dir, ascii "A") := by
    have hname : strchr 32 (ascii "type=dir; A" ++ [0]) = some (ascii " A" ++ [0]) := by decide
    have htype : strstr (ascii "type=") (cstr (ascii "type=dir; A" ++ [0])) = some (ascii "type=dir; A") := by decide
    have hmax : ¬ maxRemoteFiles ≤ b.total true := by
      have : (1 : ℕ) < maxRemoteFiles := by decide
      omega
    simp only [accepted, hname, htype]
    rw [if_neg]
    · decide
    · rintro (h | h)
      · exact hmax h
      · exact absurd h (by decide)
  have hone : (added [h1, ascii "type=dir; A"] (AppT.clearRemote ({ vars := () } : AppT Unit))).total true =
      uadd (b.total true) 1 := by
    change (ftpAddRemoteFile { b with rxBuf := ascii "type=dir; A" ++ [0] }).total true = _
    rw [ftpAddRemoteFile_accepted hacc]
    simp
  rw [hone] at htotal
  unfold uadd at htotal
  rw [Nat.mod_eq_of_lt (by unfold uintRange; omega)] at htotal
  omega

end LwftpCe.App
