import LwftpCe.App.Listing
import LwftpCe.App.Events

/-!
# The two columns

`app.total` counts the entries of a list, the cursor is on one of them (`app.selected`), and those from `app.start` on are shown.
The keys go around at both ends of a list with an entry; an operation changes the number of the entries, and a listing sets it
anew while the cursor stays.
-/

namespace LwftpCe.App

open Lib Lwftp List Function AppT Option

variable {V : Type} {F : Fileioc V} {n : ℕ}

/-! ### Columns -/

def AppT.files (a : AppT V) : Bool → FileList
  | false => a.localFiles
  | true => a.remoteFiles
def capacity : Bool → ℕ
  | false => maxLocalFiles
  | true => maxRemoteFiles

def isListing (s : Prog V) : Bool := s.user.doneFn = some .ftpListCallback ∧ s.usr.busy

structure Settled (a : AppT V) (c : Bool) : Prop where
  total : a.total c = (List.range (capacity c)).countP fun i => (a.files c i).type ≠ .unknown
  inList : a.selected c < max (a.total c) 1
  start : a.start c ≤ a.selected c
  shown : a.selected c ≤ a.start c + maxShownFiles - 1
  entry : (a.files c (a.selected c)).type ≠ .unknown ∨ a.total c = 0 ∧ a.selected c = 0

/-- The valid entries are the first ones of the list, and `app.total` is their number. -/
structure Counted (a : AppT V) (c : Bool) : Prop where
  le : a.total c ≤ capacity c
  valid : ∀ i < capacity c, (a.files c i).type ≠ .unknown ↔ i < a.total c

/-- What holds of both columns between events; `l` is whether a listing is in progress, which counts the remote column anew. -/
structure Tidy (l : Bool) (a : AppT V) : Prop where
  counted : ∀ c, Counted a c
  start : ∀ c, a.start c ≤ a.selected c
  shown : ∀ c, a.selected c ≤ a.start c + maxShownFiles - 1
  range : ∀ c, a.selected c < uintRange
  inList : ∀ c, (c = true → l = false) → a.selected c < max (a.total c) 1

/-! ### The condition -/

def localCount (F : Fileioc V) (v : V) : ℕ := ((F.detectAny v).filterMap localFile).length

def opens (new : Option ℕ) (s : Prog V) : Bool := new.isSome ∧ s.controlState ≠ .quitSent ∨ s.usr.selected true = 0

/-- The callback can have this result: the cursor is inside the list that has come in, the next listing is not refused, no entry is
dropped from the local column or above the first one shown, and a stored file does not make the local list too short. -/
def tidyDone (F : Fileioc V) (new : Option ℕ) (s : Prog V) (r : Result) : Ptr → Bool
  | .ftpListCallback => s.usr.busy = false ∨ s.usr.selected true < max (s.usr.total true) 1
  | .ftpConnectCallback => r ≠ .logged ∨ opens new s
  | .ftpCwdCallback | .ftpDelCallback | .ftpStorCallback => r ≠ .ok ∨ opens new s
  | .ftpMoveCallback =>
    r ≠ .ok ∨ opens new s ∧ s.usr.remoteColumn ∧ ¬ (1 < s.usr.total true ∧ s.usr.start true = s.usr.total true - 1)
  | .ftpRetrCallback =>
    r ≠ .ok ∨ (receiveFile s.usr.fileBuffer).all fun v =>
      s.usr.selected false < max (localCount F (F.writeVar s.usr.vars v.name v.type v.data v.archived)) 1
  | _ => true

def tidyArrows (down : Key → Bool) (l : Bool) (a : AppT V) : Bool :=
  let c := a.remoteColumn
  if down .left ∨ down .right then true
  else if down .up then a.selected c ≠ 0 ∨ a.total c ≠ 0
  else if down .down then (a.total c ≠ 0 ∨ c ∧ l) ∧ a.selected c + maxShownFiles < uintRange
  else true

def tidyKeys (down : Key → Bool) (a : AppT V) : Bool :=
  (chooseOp down a = some .delete → a.remoteColumn ∧ a.remoteEntry.type = .dir) ∧
  (down .second ∧ a.ftpStarted ∧ a.busy = false → a.remoteColumn)

def tidy (F : Fileioc V) (m : Main V) : Event → Bool
  | .tcp e new => m.mode = .closing ∨ (e.result m.s).all fun r => m.s.user.doneFn.all (tidyDone F new m.s r)
  | .keys down _ => tidyArrows down (isListing m.s) m.s.usr && tidyKeys down (moveCursor down m.s.usr)
  | _ => true

/-! ### Counting -/

section Counted

variable {a b : AppT V} {c : Bool}

lemma capacity_lt (c : Bool) : capacity c + maxShownFiles < uintRange := by cases c <;> decide

lemma Counted.congr (h : Counted a c) (ht : b.total c = a.total c) (hf : b.files c = a.files c) : Counted b c := by
  refine ⟨ht ▸ h.le, fun i hi => ?_⟩
  rw [hf, ht]
  exact h.valid i hi

lemma Counted.count (h : Counted a c) : a.total c = (List.range (capacity c)).countP fun i => (a.files c i).type ≠ .unknown := by
  have hp : ∀ i ∈ List.range (capacity c), decide ((a.files c i).type ≠ .unknown) = true ↔ decide (i < a.total c) = true := by
    intro i hi
    simpa only [decide_eq_true_eq] using h.valid i (mem_range.1 hi)
  have hcount : ∀ N t : ℕ, (List.range N).countP (fun i => decide (i < t)) = min N t := by
    intro N t
    induction N with
    | zero => simp
    | succ N ih =>
      rw [range_succ, countP_append, countP_singleton]
      split_ifs with h <;> simp only [decide_eq_true_eq] at h <;> omega
  rw [countP_congr hp, hcount, min_eq_right h.le]

lemma Counted.clearRemote (a : AppT V) : Counted a.clearRemote true := by
  refine ⟨by simp [AppT.clearRemote], fun i hi => ?_⟩
  have hi' : i < maxRemoteFiles := hi
  simp [AppT.clearRemote, AppT.files, FileList.clear, hi', FileT.zero]

lemma localFile_valid {v : Name8 × UInt8} {f : FileT} (h : localFile v = some f) : f.type ≠ .unknown := by
  unfold localFile at h
  simp only at h
  split_ifs at h <;> cases h <;> simp

lemma Counted.utilGetLocalFiles (h : localCount F a.vars ≤ maxLocalFiles) :
    Counted (utilGetLocalFiles F a) false ∧ (utilGetLocalFiles F a).total false = localCount F a.vars := by
  have hlt : localCount F a.vars < uintRange := lt_of_le_of_lt h (by decide)
  have ht : (App.utilGetLocalFiles F a).total false = localCount F a.vars := by
    exact Nat.mod_eq_of_lt hlt
  refine ⟨⟨ht ▸ h, fun i hi => ?_⟩, ht⟩
  rw [ht]
  simp only [files, App.utilGetLocalFiles]
  by_cases hl : i < localCount F a.vars
  · have hget := getElem?_eq_getElem hl
    obtain ⟨v, -, hv⟩ := mem_filterMap.1 (getElem_mem hl)
    rw [hget]
    exact iff_of_true (localFile_valid hv) hl
  · have hi' : i < maxLocalFiles := hi
    rw [getElem?_eq_none (Nat.le_of_not_lt hl)]
    simp [FileList.clear, hi', FileT.zero, hl]

lemma Counted.ftpAddRemoteFile (h : Counted a true) :
    Counted (ftpAddRemoteFile a) true ∧ a.total true ≤ (ftpAddRemoteFile a).total true := by
  unfold App.ftpAddRemoteFile
  split
  · simp only
    split_ifs with hmax hty
    · exact ⟨h, le_rfl⟩
    · refine ⟨⟨h.le, fun i hi => ?_⟩, le_rfl⟩
      by_cases hit : i = a.total true
      · subst hit
        simp [files, hty]
      · simpa [files, hit] using h.valid i hi
    · have hlt : a.total true < maxRemoteFiles := Nat.lt_of_not_le hmax
      have hadd : uadd (a.total true) 1 = a.total true + 1 :=
        Nat.mod_eq_of_lt (lt_of_le_of_lt (Nat.succ_le_of_lt hlt) (by decide))
      refine ⟨⟨?_, fun i hi => ?_⟩, ?_⟩
      · simp only [update_self, hadd]
        exact hlt
      · simp only [files, update_self, hadd]
        by_cases hit : i = a.total true
        · subst hit
          simp [hty]
        · have := h.valid i hi
          simp only [files] at this
          simp only [update_of_ne hit, this]
          omega
      · simp [hadd]
  · exact ⟨h, le_rfl⟩

end Counted

/-! ### What the pieces keep -/

section Tidy

variable {a b : AppT V} {l : Bool} {c : AppT V} {e : Tcp} {s t : Prog V}

lemma Tidy.any (h : Tidy false a) (l : Bool) : Tidy l a :=
  ⟨h.counted, h.start, h.shown, h.range, fun c _ => h.inList c fun _ => rfl⟩

lemma Tidy.settled (h : Tidy false a) (c : Bool) : Settled a c := by
  have hin := h.inList c fun _ => rfl
  refine ⟨(h.counted c).count, hin, h.start c, h.shown c, ?_⟩
  by_cases ht : a.total c = 0
  · exact .inr ⟨ht, by omega⟩
  · have hlt : a.selected c < a.total c := by omega
    exact .inl (((h.counted c).valid _ (lt_of_lt_of_le hlt (h.counted c).le)).2 hlt)

structure Cols (a b : AppT V) : Prop where
  start : b.start = a.start
  selected : b.selected = a.selected
  total : b.total = a.total
  localFiles : b.localFiles = a.localFiles
  remoteFiles : b.remoteFiles = a.remoteFiles

lemma Cols.files (h : Cols a b) (c : Bool) : b.files c = a.files c := by
  cases c
  · exact h.localFiles
  · exact h.remoteFiles

lemma Tidy.cols (h : Tidy l a) (hc : Cols a b) : Tidy l b := by
  refine ⟨fun c => (h.counted c).congr (congrFun hc.total c) (hc.files c), ?_, ?_, ?_, ?_⟩ <;>
    simp only [hc.start, hc.selected, hc.total]
  · exact h.start
  · exact h.shown
  · exact h.range
  · exact h.inList

/-- The remote list may get longer, and nothing else of the columns changes. -/
structure Grown (a b : AppT V) : Prop where
  start : b.start = a.start
  selected : b.selected = a.selected
  localTotal : b.total false = a.total false
  localFiles : b.localFiles = a.localFiles
  counted : Counted a true → Counted b true ∧ a.total true ≤ b.total true

lemma Cols.grown (h : Cols a b) : Grown a b :=
  ⟨h.start, h.selected, congrFun h.total false, h.localFiles, fun hc =>
    ⟨hc.congr (congrFun h.total true) (h.files true), (congrFun h.total true).ge⟩⟩

lemma Grown.trans (h : Grown a b) (h' : Grown b c) : Grown a c :=
  ⟨h'.start.trans h.start, h'.selected.trans h.selected, h'.localTotal.trans h.localTotal,
    h'.localFiles.trans h.localFiles, fun hc =>
    ⟨(h'.counted (h.counted hc).1).1, (h.counted hc).2.trans (h'.counted (h.counted hc).1).2⟩⟩

lemma Tidy.grown (h : Tidy l a) (hg : Grown a b) : Tidy l b := by
  obtain ⟨hct, hle⟩ := hg.counted (h.counted true)
  refine ⟨fun c => ?_, ?_, ?_, ?_, fun c hc => ?_⟩
  · cases c
    · exact (h.counted false).congr hg.localTotal hg.localFiles
    · exact hct
  · simpa only [hg.start, hg.selected] using h.start
  · simpa only [hg.start, hg.selected] using h.shown
  · simpa only [hg.selected] using h.range
  · have hin := h.inList c hc
    rw [hg.selected]
    cases c
    · rw [hg.localTotal]
      exact hin
    · omega

lemma endLine_grown (a : AppT V) : Grown a (endLine a) := by
  have hadd : Grown (terminate a) (ftpAddRemoteFile (terminate a)) := by
    have hfields : ∃ f t, ftpAddRemoteFile (terminate a) =
        { terminate a with remoteFiles := f, total := update (terminate a).total true t } := by
      unfold ftpAddRemoteFile
      split
      · simp only
        split_ifs
        · exact ⟨_, _, by rw [update_eq_self]⟩
        · exact ⟨_, _, by rw [update_eq_self]⟩
        · exact ⟨_, _, rfl⟩
      · exact ⟨_, _, by rw [update_eq_self]⟩
    obtain ⟨f, t, hf⟩ := hfields
    refine ⟨by rw [hf], by rw [hf], ?_, by rw [hf], Counted.ftpAddRemoteFile⟩
    rw [hf]
    rfl
  have hterm : Cols a (terminate a) := ⟨rfl, rfl, rfl, rfl, rfl⟩
  have hend : Cols (ftpAddRemoteFile (terminate a)) (endLine a) := ⟨rfl, rfl, rfl, rfl, rfl⟩
  exact (hterm.grown.trans hadd).trans hend.grown

lemma listBytes_grown (d : Bytes) (a : AppT V) : Grown a (listBytes d a) := by
  induction d generalizing a with
  | nil => exact Cols.grown ⟨rfl, rfl, rfl, rfl, rfl⟩
  | cons c d ih =>
    unfold listBytes
    split_ifs
    · exact (endLine_grown a).trans (ih _)
    · have hstore : Cols a { a with rxBuf := a.rxBuf.set a.rxOffset c, rxOffset := a.rxOffset + 1 } :=
        ⟨rfl, rfl, rfl, rfl, rfl⟩
      exact hstore.grown.trans (ih _)
    · exact Cols.grown ⟨rfl, rfl, rfl, rfl, rfl⟩

/-- Everything but the offsets and the path stays as it is. -/
structure Alike (a b : AppT V) : Prop extends Cols a b where
  remoteColumn : b.remoteColumn = a.remoteColumn
  fileBuffer : b.fileBuffer = a.fileBuffer
  vars : b.vars = a.vars
  tcpNew : b.tcpNew = a.tcpNew

lemma pwdSink_alike (d : Option Bytes) (a : AppT V) : Alike a (ftpPwdDataSink d a) := by
  unfold ftpPwdDataSink
  split <;> exact ⟨⟨rfl, rfl, rfl, rfl, rfl⟩, rfl, rfl, rfl, rfl⟩

lemma sink_grown (F : Fileioc V) (n : ℕ) (k : Ptr) (d : Option Bytes) (a : AppT V) : Grown a ((appCaller F n).sink k d a) := by
  have hs : (appCaller F n).sink k d a = (callerWith F fun _ s => s).sink k d a := by cases n <;> rfl
  have hid : Grown a a := Cols.grown ⟨rfl, rfl, rfl, rfl, rfl⟩
  rw [hs]
  cases k with
  | ftpListDataSink =>
    cases d with
    | none => exact hid
    | some d => exact listBytes_grown d a
  | ftpPwdDataSink => exact (pwdSink_alike d a).toCols.grown
  | ftpRetrDataSink =>
    cases d with
    | none => exact hid
    | some d => exact Cols.grown ⟨rfl, rfl, rfl, rfl, rfl⟩
  | _ => exact hid

lemma source_alike (F : Fileioc V) (n : ℕ) (k : Ptr) (p : Bool) (len : ℕ) (a : AppT V) :
    Alike a ((appCaller F n).source k p len a).2 := by
  obtain ⟨o, h⟩ := source_frame F n k p len a
  rw [h]
  exact ⟨⟨rfl, rfl, rfl, rfl, rfl⟩, rfl, rfl, rfl, rfl⟩

lemma Alike.trans (h : Alike a b) (h' : Alike b c) : Alike a c :=
  ⟨⟨h'.start.trans h.start, h'.selected.trans h.selected, h'.total.trans h.total, h'.localFiles.trans h.localFiles,
    h'.remoteFiles.trans h.remoteFiles⟩, h'.remoteColumn.trans h.remoteColumn, h'.fileBuffer.trans h.fileBuffer,
    h'.vars.trans h.vars, h'.tcpNew.trans h.tcpNew⟩

lemma grown_of_turn (h : Turn (appCaller F n) e s t) : Grown s.usr t.usr :=
  h.usr (Grown s.usr) (fun k p len u hu => hu.trans (source_alike F n k p len u).toCols.grown)
    (fun k d u _ _ hu => hu.trans (sink_grown F n k d u)) (Cols.grown ⟨rfl, rfl, rfl, rfl, rfl⟩)

lemma alike_of_calling {m : Main V} (hst : Steady m) {r : Result} {new : Option ℕ}
    (h : Calling (appCaller F n) e r (setNew new m.s) t) : Alike (setNew new m.s).usr t.usr := by
  refine h.turn.usr (Alike (setNew new m.s).usr) (fun k p len u hu => hu.trans (source_alike F n k p len u))
    (fun k d u hk hd hu => ?_) ⟨⟨rfl, rfl, rfl, rfl, rfl⟩, rfl, rfl, rfl, rfl⟩
  rcases h.data with hno | hpwd
  · rw [hno] at hd
    cases hd
  · obtain rfl : k = .ftpPwdDataSink := Option.some.inj (hk.symm.trans (hst.pwd hpwd).2)
    have hsink : (appCaller F n).sink .ftpPwdDataSink = ftpPwdDataSink := by cases n <;> rfl
    rw [hsink]
    exact hu.trans (pwdSink_alike d u)

/-! ### The keys -/

lemma Tidy.cursor (h : Tidy l a) (c : Bool) (sel st : ℕ) (hst : st ≤ sel) (hshown : sel ≤ st + maxShownFiles - 1)
    (hrange : sel < uintRange) (hin : (c = true → l = false) → sel < max (a.total c) 1) :
    Tidy l { a with selected := update a.selected c sel, start := update a.start c st } := by
  have hcol : ∀ c' {f : ℕ → ℕ → Prop}, f st sel → (c' ≠ c → f (a.start c') (a.selected c')) →
      f (update a.start c st c') (update a.selected c sel c') := by
    intro c' f h1 h2
    by_cases hc : c' = c
    · subst hc
      simpa using h1
    · simpa [hc] using h2 hc
  refine ⟨fun c' => (h.counted c').congr rfl (by cases c' <;> rfl), fun c' => ?_, fun c' => ?_, fun c' => ?_, fun c' hc => ?_⟩
  · exact hcol c' hst fun _ => h.start c'
  · exact hcol c' (f := fun x y => y ≤ x + maxShownFiles - 1) hshown fun _ => h.shown c'
  · exact hcol c' (f := fun _ y => y < uintRange) hrange fun _ => h.range c'
  · by_cases hcc : c' = c
    · subst hcc
      simpa using hin hc
    · simpa [hcc] using h.inList c' hc

lemma Tidy.select (h : Tidy l a) (c : Bool) (sel : ℕ) (hst : a.start c ≤ sel) (hshown : sel ≤ a.start c + maxShownFiles - 1)
    (hrange : sel < uintRange) (hin : (c = true → l = false) → sel < max (a.total c) 1) :
    Tidy l { a with selected := update a.selected c sel } := by
  have := h.cursor c sel (a.start c) hst hshown hrange hin
  rwa [update_eq_self] at this

section Arrows

variable (h : Tidy l a) {c : Bool}
include h

lemma Tidy.up (h0 : a.selected c ≠ 0) : Tidy l (if usub (a.selected c) 1 < a.start c then { a with
        selected := update a.selected c (usub (a.selected c) 1)
        start := update a.start c (usub (a.start c) 1) }
      else { a with selected := update a.selected c (usub (a.selected c) 1) }) := by
  have hstart := h.start c
  have hshown := h.shown c
  have hin := h.inList c
  have hrange := h.range c
  rw [usub_of_le hrange (by omega)]
  split_ifs with hlt
  · have hst : a.start c = a.selected c := by omega
    rw [hst, usub_of_le hrange (by omega)]
    exact h.cursor c _ _ le_rfl (by omega) (by omega) fun hc => lt_of_le_of_lt (Nat.sub_le _ _) (hin hc)
  · exact h.select c _ (by omega) (by omega) (by omega) fun hc => lt_of_le_of_lt (Nat.sub_le _ _) (hin hc)

lemma Tidy.upAround (h0 : a.selected c = 0) (ht : a.total c ≠ 0) : Tidy l (if a.total c > maxShownFiles then { a with
        selected := update a.selected c (usub (a.total c) 1)
        start := update a.start c (usub (a.total c) maxShownFiles) }
      else { a with selected := update a.selected c (usub (a.total c) 1) }) := by
  have hstart := h.start c
  have h15 : maxShownFiles = 15 := rfl
  have htot := (h.counted c).le
  have hcap := capacity_lt c
  have hrange : a.total c < uintRange := by omega
  rw [usub_of_le (n := 1) hrange (by omega)]
  split_ifs with hlt
  · rw [usub_of_le hrange (by omega)]
    exact h.cursor c _ _ (by omega) (by omega) (by omega) fun _ => by omega
  · exact h.select c _ (by omega) (by omega) (by omega) fun _ => by omega

lemma Tidy.down (hne : a.selected c ≠ usub (a.total c) 1) (ht : a.total c ≠ 0 ∨ c = true ∧ l = true)
    (hmax : a.selected c + maxShownFiles < uintRange) :
    Tidy l (if uadd (a.selected c) 1 > usub (uadd (a.start c) maxShownFiles) 1 then
      { a with
        selected := update a.selected c (uadd (a.selected c) 1)
        start := update a.start c (uadd (a.start c) 1) }
      else { a with selected := update a.selected c (uadd (a.selected c) 1) }) := by
  have hstart := h.start c
  have hshown := h.shown c
  have h15 : maxShownFiles = 15 := rfl
  have htot := (h.counted c).le
  have hcap := capacity_lt c
  have hadd : ∀ {x k : ℕ}, x ≤ a.selected c → k ≤ 15 → uadd x k = x + k := fun h1 h2 => Nat.mod_eq_of_lt (by omega)
  have hin : (c = true → l = false) → a.selected c + 1 < max (a.total c) 1 := by
    intro hc
    have htot0 : a.total c ≠ 0 := ht.resolve_right fun ⟨h1, h2⟩ => by simp [hc h1] at h2
    have := h.inList c hc
    rw [usub_of_le (by omega) (by omega)] at hne
    omega
  rw [hadd le_rfl (by omega), hadd hstart (by omega), hadd hstart (by omega), usub_of_le (by omega) (by omega)]
  split_ifs with hlt
  · exact h.cursor c _ _ (by omega) (by omega) (by omega) hin
  · exact h.select c _ (by omega) (by omega) (by omega) hin

end Arrows

lemma moveCursor_tidy {down : Key → Bool} (h : Tidy l a) (hok : tidyArrows down l a) : Tidy l (moveCursor down a) := by
  unfold moveCursor
  unfold tidyArrows at hok
  simp only [update_self] at hok ⊢
  by_cases hlr : down .left ∨ down .right
  · rw [if_pos hlr]
    exact h.cols ⟨rfl, rfl, rfl, rfl, rfl⟩
  rw [if_neg hlr] at hok ⊢
  by_cases hup : down .up
  · rw [if_pos hup] at hok ⊢
    simp only [ne_eq, decide_eq_true_eq] at hok
    by_cases h0 : a.selected a.remoteColumn = 0
    · rw [if_neg (not_not_intro h0)]
      exact h.upAround h0 (hok.resolve_left (not_not_intro h0))
    · rw [if_pos h0]
      exact h.up h0
  rw [if_neg hup] at hok ⊢
  by_cases hdown : down .down
  · rw [if_pos hdown] at hok ⊢
    simp only [ne_eq, decide_eq_true_eq] at hok
    by_cases hlast : a.selected a.remoteColumn = usub (a.total a.remoteColumn) 1
    · rw [if_neg (not_not_intro hlast)]
      exact h.cursor _ 0 0 le_rfl (Nat.zero_le _) (by decide) fun _ => by omega
    · rw [if_pos hlast]
      exact h.down hlast hok.1 hok.2
  · rw [if_neg hdown]
    exact h

/-! ### The callbacks and the operations -/

lemma cutPath_cols (a : AppT V) : Cols a a.cutPath := by
  unfold cutPath
  split <;> exact ⟨rfl, rfl, rfl, rfl, rfl⟩

lemma fails_cols (k : Ptr) (r : Result) (a : AppT V) : Cols a (a.fails k r) := by
  unfold fails
  split_ifs
  · have := cutPath_cols a
    exact ⟨this.start, this.selected, this.total, this.localFiles, this.remoteFiles⟩
  · exact ⟨rfl, rfl, rfl, rfl, rfl⟩

lemma Started.cols {api : Api} {st : State} {k : Ptr} {x : Prog V} (h : Started api st k s x) : Cols s.usr x.usr := by
  cases h with
  | accepted _ hw =>
    rw [hw]
    exact ⟨rfl, rfl, rfl, rfl, rfl⟩
  | @refused r _ _ _ hw =>
    rw [hw]
    exact fails_cols k r s.usr

lemma Tidy.clearRemote (h : Tidy l a) (l' : Bool) (hl : l' = true ∨ a.selected true = 0) : Tidy l' a.clearRemote := by
  refine ⟨fun c => ?_, h.start, h.shown, h.range, fun c hc => ?_⟩
  · cases c
    · exact (h.counted false).congr (by simp [AppT.clearRemote]) rfl
    · exact Counted.clearRemote a
  · cases c
    · simpa [AppT.clearRemote] using h.inList false (by simp)
    · have h0 : a.selected true = 0 := hl.resolve_left (by simp [hc rfl])
      simp [AppT.clearRemote, h0]

lemma Tidy.dropRemote (h : Tidy false a) (hc : a.remoteColumn = true)
    (hs : ¬ (1 < a.total true ∧ a.start true = a.total true - 1)) {l' : Bool} (hl : l' = true ∨ a.selected true = 0) :
    Tidy l' a.dropEntry.clearRemote := by
  have htot := (h.counted true).le
  have hcap := capacity_lt true
  have hin := h.inList true fun _ => rfl
  have hstart := h.start true
  have hshown := h.shown true
  unfold dropEntry
  simp only [hc, update_self]
  split_ifs with hd
  · -- the cursor was on the last entry, and goes to the one before
    rw [usub_of_le (by omega) (by omega)] at hd
    rw [usub_of_le (by omega) (by omega)]
    have hb := h.select true (a.selected true - 1) (by omega) (by omega) (by omega) fun _ => by omega
    refine (hb.clearRemote l' (hl.imp id fun h0 => by omega)).cols ⟨rfl, ?_, ?_, rfl, rfl⟩
    · rfl
    · simp [AppT.clearRemote]
  · refine (h.clearRemote _ hl).cols ⟨rfl, rfl, ?_, rfl, rfl⟩
    simp [AppT.clearRemote]

lemma Tidy.utilGetLocalFiles (h : Tidy l a) (hF : localCount F a.vars ≤ maxLocalFiles)
    (hin : a.selected false < max (localCount F a.vars) 1) : Tidy l (utilGetLocalFiles F a) := by
  obtain ⟨hcount, htot⟩ := Counted.utilGetLocalFiles hF
  refine ⟨fun c => ?_, h.start, h.shown, h.range, fun c hc => ?_⟩
  · cases c
    · exact hcount
    · exact (h.counted true).congr (by simp [App.utilGetLocalFiles]) rfl
  · cases c
    · rw [htot]
      exact hin
    · simpa [App.utilGetLocalFiles] using h.inList true hc

end Tidy

/-! ### Events -/

section Step

variable {m m' : Main V} {s t x : Prog V} {k : Ptr} {r : Result} {new : Option ℕ} {e : Tcp} {f : AppT V → AppT V}

lemma tidyDone_relists (hrel : Relists k r f) (h : tidyDone F new s r k) :
    opens new s ∧ (k = .ftpMoveCallback → s.usr.remoteColumn = true ∧
      ¬ (1 < s.usr.total true ∧ s.usr.start true = s.usr.total true - 1)) := by
  cases hrel with
  | login | cwd | del | stor => exact ⟨by simpa [tidyDone] using h, fun h => by cases h⟩
  | move =>
    simp only [tidyDone, ne_eq, not_true_eq_false, false_or, decide_eq_true_eq] at h
    exact ⟨h.1, fun _ => h.2⟩

lemma Relists.tidy (hrel : Relists k r f) {a : AppT V} (h : Tidy false a)
    (hm : k = .ftpMoveCallback → a.remoteColumn = true ∧ ¬ (1 < a.total true ∧ a.start true = a.total true - 1))
    {l : Bool} (hl : l = true ∨ a.selected true = 0) : Tidy l (f a).clearRemote := by
  have hcut := cutPath_cols a
  have hsel : a.cutPath.selected true = a.selected true := congrFun hcut.selected true
  cases hrel with
  | login => exact (h.cols (b := { a with ftpStarted := true }) ⟨rfl, rfl, rfl, rfl, rfl⟩).clearRemote _ hl
  | cwd => exact h.clearRemote _ hl
  | del | stor => exact (h.cols hcut).clearRemote _ (hsel ▸ hl)
  | move =>
    obtain ⟨hc, hs⟩ := hm rfl
    have hcc : a.cutPath.remoteColumn = a.remoteColumn := by
      unfold cutPath
      split <;> rfl
    refine (h.cols hcut).dropRemote (hcc.trans hc) ?_ (hsel ▸ hl)
    rw [hcut.total, hcut.start]
    exact hs

lemma Relists.tcpNew (hrel : Relists k r f) (a : AppT V) : (f a).tcpNew = a.tcpNew := by
  have hcut : a.cutPath.tcpNew = a.tcpNew := by
    unfold cutPath
    split <;> rfl
  have hdrop : ∀ b : AppT V, b.dropEntry.tcpNew = b.tcpNew := by
    intro b
    unfold dropEntry
    simp only
    split_ifs <;> rfl
  cases hrel with
  | login | cwd => rfl
  | del | stor => exact hcut
  | move => exact (hdrop _).trans hcut

lemma lists_ready (hst : Steady m) (hcall : Calling (appCaller F n) e r (setNew new m.s) t)
    (hrel : Relists k r f) (hnew : new.isSome) (hq : m.s.controlState ≠ .quitSent)
    (halike : Alike (setNew new m.s).usr t.usr) :
    Api.ready (toList (onApp f (t.note (.done k r)))) (.mlsd (f t.usr).tcpNew) = true := by
  have hok : r = .ok ∨ r = .logged := by cases hrel <;> simp
  have hlogged : t.controlState = .logged ∧ t.dataPcb = none := by
    rcases hcall.rest with h | h
    · exact ⟨h.1, h.2.1⟩
    · exact absurd ((hcall.ok hok).2.2 h.1) hq
  have htcp : (f t.usr).tcpNew = new := (hrel.tcpNew t.usr).trans halike.tcpNew
  have hpath : t.user.remotePath.isSome := by
    rw [hcall.turn.user]
    exact hst.remotePath
  rw [htcp]
  simp only [Api.ready, Api.given, toList, onUser, onApp, Session.note, hlogged, hpath, hnew, isNone_none, Bool.and_self,
    and_self, decide_true]

lemma isListing_of_not {s : Prog V} (h : s.user.doneFn ≠ some .ftpListCallback) : isListing s = false := by
  simp [isListing, h]

lemma Called.tidy (hF : ∀ v, localCount F v ≤ maxLocalFiles) (hst : Steady m) (h : Tidy (isListing m.s) m.s.usr)
    (hcall : Calling (appCaller F n) e r (setNew new m.s) t) (hk : t.user.doneFn = some k) (hok : tidyDone F new m.s r k)
    (hx : Called F k r (t.note (.done k r)) x) : Tidy (isListing x) x.usr := by
  have halike := alike_of_calling hst hcall
  have hks : m.s.user.doneFn = some k := hcall.turn.user ▸ hk
  -- a listing that ends has been long enough
  have hm : Tidy false m.s.usr := by
    cases hl : isListing m.s with
    | false => exact hl ▸ h
    | true =>
      have hin : m.s.usr.selected true < max (m.s.usr.total true) 1 := by
        simp only [isListing, hks, Option.some.injEq, decide_eq_true_eq] at hl
        obtain ⟨rfl, hb⟩ := hl
        simpa [tidyDone, hb] using hok
      refine ⟨h.counted, h.start, h.shown, h.range, fun c _ => ?_⟩
      cases c
      · exact h.inList false (by simp)
      · exact hin
  have ht : Tidy false t.usr := hm.cols ⟨halike.start, halike.selected, halike.total, halike.localFiles, halike.remoteFiles⟩
  cases hx with
  | fails => exact (ht.cols (fails_cols k r t.usr)).any _
  | hangs _ _ hw =>
    rw [hw]
    exact (ht.any _).cols ⟨rfl, rfl, rfl, rfl, rfl⟩
  | @lists _ f hrel hiss =>
    obtain ⟨hopens, hmove⟩ := tidyDone_relists hrel hok
    have hmove' : k = .ftpMoveCallback → t.usr.remoteColumn = true ∧
        ¬ (1 < t.usr.total true ∧ t.usr.start true = t.usr.total true - 1) := by
      rw [halike.remoteColumn, halike.total, halike.start]
      exact hmove
    have hsel : isListing x = true ∨ t.usr.selected true = 0 := by
      simp only [opens, ne_eq, decide_eq_true_eq] at hopens
      rcases hopens with ⟨hnew, hq⟩ | h0
      · left
        cases hiss.started with
        | accepted hu hw =>
          simp only [isListing, hu, hw, decide_eq_true_eq]
          exact ⟨rfl, rfl⟩
        | refused _ _ _ _ _ _ _ hn =>
          exact absurd ((lists_ready hst hcall hrel hnew hq halike).symm.trans hn) (by simp)
      · exact .inr ((congrFun halike.selected true).trans h0)
    exact (hrel.tidy ht hmove' hsel).cols hiss.started.cols
  | asks _ _ hiss =>
    have hpwd : Cols t.usr (toPwd (t.note (.done k r))).usr := ⟨rfl, rfl, rfl, rfl, rfl⟩
    exact ((ht.any _).cols hpwd).cols hiss.started.cols
  | told => exact (ht.any _).cols ⟨rfl, rfl, rfl, rfl, rfl⟩
  | stores hkr hr =>
    subst hkr hr
    change Tidy _ (store F t.usr)
    simp only [tidyDone, ne_eq, not_true_eq_false, false_or, Option.all_eq_true, decide_eq_true_eq] at hok
    unfold store
    split
    · exact (ht.any _).cols ⟨rfl, rfl, rfl, rfl, rfl⟩
    · next v hv =>
      have hcols : Cols t.usr { t.usr with
          busy := false, vars := F.writeVar t.usr.vars v.name v.type v.data v.archived } := ⟨rfl, rfl, rfl, rfl, rfl⟩
      refine ((ht.any _).cols hcols).utilGetLocalFiles (hF _) ?_
      have := hok v (halike.fileBuffer ▸ hv)
      rw [show t.usr.selected = m.s.usr.selected from halike.selected, show t.usr.vars = m.s.usr.vars from halike.vars]
      exact this
  | idle => exact ht.any _

lemma Ran.tidy {op : Op} {mode : Mode} (h : Tidy false s.usr)
    (hdel : op = .delete → s.usr.remoteColumn = true ∧ s.usr.remoteEntry.type = .dir) (hx : Ran F s op x mode) :
    Tidy false x.usr := by
  cases hx with
  | @begins b y hb hiss =>
    have hbefore : Tidy false (b.before s.usr) := by
      cases op with
      | enter =>
        cases hb
        exact (h.cursor true 0 0 le_rfl (Nat.zero_le _) (by decide) fun _ => by omega).cols ⟨rfl, rfl, rfl, rfl, rfl⟩
      | back =>
        cases hb
        exact ((h.cols (cutPath_cols s.usr)).cursor true 0 0 le_rfl (Nat.zero_le _) (by decide) fun _ => by omega).cols
          ⟨rfl, rfl, rfl, rfl, rfl⟩
      | delete =>
        obtain ⟨hc, -⟩ := ite_none_left_eq_some.1 hb
        exact absurd (.inr (hdel rfl).2) hc
      | upload | download =>
        obtain ⟨-, hb⟩ := ite_none_left_eq_some.1 hb
        cases hb
        exact h.cols ⟨rfl, rfl, rfl, rfl, rfl⟩
      | move => cases hb
    have hafter : Cols y.usr (b.after y.usr) := by
      cases op with
      | enter | back =>
        cases hb
        exact ⟨rfl, rfl, rfl, rfl, rfl⟩
      | upload | download =>
        obtain ⟨-, hb⟩ := ite_none_left_eq_some.1 hb
        cases hb
        exact ⟨rfl, rfl, rfl, rfl, rfl⟩
      | delete =>
        obtain ⟨hc, -⟩ := ite_none_left_eq_some.1 hb
        exact absurd (.inr (hdel rfl).2) hc
      | move => cases hb
    exact (hbefore.cols hiss.started.cols).cols hafter
  | erases ho hc => exact absurd ((hdel ho).1.symm.trans hc) (by simp)
  | names => exact h.cols ⟨rfl, rfl, rfl, rfl, rfl⟩
  | nothing => exact h

lemma tidy_step (hF : ∀ v, localCount F v ≤ maxLocalFiles) {e : Event} (hst : Steady m)
    (h : m.mode = .closing ∨ Tidy (isListing m.s) m.s.usr) (hok : tidy F m e) (hs : Effect F n m e m') :
    m'.mode = .closing ∨ Tidy (isListing m'.s) m'.s.usr := by
  -- outside the closing loop only the columns and the listing matter
  have hopen : m.mode ≠ .closing → Tidy (isListing m.s) m.s.usr := fun hm => h.resolve_left hm
  have hmain : m.mode = .main → Tidy (isListing m.s) m.s.usr := fun hm => hopen (by simp [hm])
  cases hs with
  | connect hm hrep _ _ =>
    right
    have hl : isListing m.s = false := isListing_of_not (by simp [(hst.setup hm).doneFn])
    have ht : Tidy false m.s.usr := hl ▸ hopen (by simp [hm])
    rcases hrep.usr with hu | hu
    · rw [hu]
      exact ht.any _
    · rw [hu]
      exact (ht.any _).cols ⟨rfl, rfl, rfl, rfl, rfl⟩
  | @quiet _ new x hm hr hq =>
    refine h.imp id fun h => ?_
    have hl : isListing x = isListing m.s := by
      have hb : x.usr.busy = m.s.usr.busy := (flags_of_turn hq.turn).1
      have hu : x.user = m.s.user := hq.turn.user
      simp only [isListing, hb, hu]
    have hnew : Tidy (isListing m.s) (setNew new m.s).usr := h.cols ⟨rfl, rfl, rfl, rfl, rfl⟩
    exact hl ▸ hnew.grown (grown_of_turn hq.turn)
  | @silent _ new _ t hm hr hcall hk =>
    refine h.imp id fun h => ?_
    have hnone : m.s.user.doneFn = none := hcall.turn.user ▸ hk
    have hl : isListing m.s = false := isListing_of_not (by simp [hnone])
    have ht : Tidy false m.s.usr := hl ▸ h
    have hnew : Tidy false (setNew new m.s).usr := ht.cols ⟨rfl, rfl, rfl, rfl, rfl⟩
    exact (hnew.grown (grown_of_turn hcall.turn)).any _
  | @called _ new r t x k hm hr hcall hk hx =>
    refine h.elim .inl fun h => ?_
    have hks : m.s.user.doneFn = some k := hcall.turn.user ▸ hk
    simp only [tidy, hr, hks, all_some, decide_eq_true_eq] at hok
    refine hok.imp id fun hok => ?_
    exact Called.tidy hF hst h hcall hk hok hx
  | started hm _ | noInput hm | uploaded hm => exact .inr (hopen (by simp [hm]))
  | @cursor down new hm hop =>
    simp only [tidy, Bool.and_eq_true] at hok
    right
    have hl : isListing (setNew new (onApp (moveCursor down) m.s)) = isListing m.s := by
      have hb : (moveCursor down m.s.usr).busy = m.s.usr.busy := (same_moveCursor down m.s.usr).2.1
      simp only [isListing, setNew, onApp, hb]
    rw [hl]
    exact (moveCursor_tidy (hmain hm) hok.1).cols ⟨rfl, rfl, rfl, rfl, rfl⟩
  | @runs down new op x mode b hm hop hx =>
    simp only [tidy, tidyKeys, Bool.and_eq_true, decide_eq_true_eq] at hok
    right
    -- the operation finds `app.busy` clear
    have hb : m.s.usr.busy = false := (same_moveCursor down m.s.usr).2.1.symm.trans (chooseOp_some hop).2
    have hl : isListing m.s = false := by simp [isListing, hb]
    have hmoved : Tidy false (moveCursor down m.s.usr) := moveCursor_tidy (hl ▸ hmain hm) (hl ▸ hok.1)
    refine (Ran.tidy (hmoved.cols ⟨rfl, rfl, rfl, rfl, rfl⟩) (fun ho => ?_) hx).any _
    exact hok.2.1 (ho ▸ hop)
  | @input str _ hm _ hiss =>
    right
    have hl : isListing m.s = false := by simp [isListing, hst.input hm]
    have ht : Tidy false m.s.usr := hl ▸ hopen (by simp [hm])
    have hmv : Cols m.s.usr (toMove str m.s).usr := ⟨rfl, rfl, rfl, rfl, rfl⟩
    exact ((ht.any _).cols hmv).cols hiss.started.cols
  | downloaded hm =>
    right
    have hl : isListing m.s = false := isListing_of_not (by simp [hst.download hm])
    have ht : Tidy false m.s.usr := hl ▸ hopen (by simp [hm])
    exact (ht.any _).cols (cutPath_cols m.s.usr)
  | quit => exact .inl rfl

lemma tidy_boot (hF : ∀ v, localCount F v ≤ maxLocalFiles) (vars : V) (userName password : Bytes) :
    Tidy false (boot F vars userName password).s.usr := by
  have h0 : Tidy false { vars, userName, password } := by
    refine ⟨fun c => ⟨Nat.zero_le _, fun i _ => ?_⟩, fun _ => le_rfl, fun _ => Nat.zero_le _,
      fun _ => Nat.two_pow_pos 24, fun _ _ => by simp⟩
    cases c <;> simp [files, FileT.zero]
  refine h0.utilGetLocalFiles (hF vars) ?_
  exact lt_of_lt_of_le Nat.zero_lt_one (le_max_right _ _)

lemma tidy_began (F : Fileioc V) (m : Main V) (b : Option Began) (e : Event) : tidy F { m with began := b } e = tidy F m e := by
  cases e <;> rfl

end Step

/-- **The columns are settled** in every state of the main loop without a listing, after every run of tidy events; and the
arrow keys of a tidy event leave them so before the list is looked at, by an operation or by the key 2nd. -/
theorem columns_settled (F : Fileioc V) (hF : ∀ v, localCount F v ≤ maxLocalFiles) (n : ℕ) (vars : V)
    (userName password : Bytes) (es : List Event) (m : Main V)
    (h : run (guarded (tidy F) (stepMain F (n + 1))) (boot F vars userName password) es = some m)
    (hm : m.mode ≠ .closing) (hl : isListing m.s = false) :
    (∀ c, Settled m.s.usr c) ∧
    ∀ down new, tidy F m (.keys down new) →
      (∀ c, Settled (moveCursor down m.s.usr) c) ∧
      (down .second ∧ (moveCursor down m.s.usr).ftpStarted ∧ (moveCursor down m.s.usr).busy = false →
        (moveCursor down m.s.usr).dirEntry.type ≠ .unknown ∨
          (moveCursor down m.s.usr).total true = 0 ∧ (moveCursor down m.s.usr).selected true = 0) := by
  have hinv := (run_steady (fun _ _ h => h) (tidy_began F)
    (fun m e m' hst _ hi hok hs => tidy_step hF hst hi hok hs) (.inr (tidy_boot hF vars userName password)) h).2
  have ht : Tidy false m.s.usr := hl ▸ hinv.resolve_left hm
  refine ⟨ht.settled, fun down new hok => ?_⟩
  simp only [tidy, tidyKeys, Bool.and_eq_true, decide_eq_true_eq] at hok
  have hmoved := (moveCursor_tidy ht (hl ▸ hok.1)).settled
  refine ⟨hmoved, fun hsecond => ?_⟩
  -- 2nd looks at the remote list, at the cursor of the current column
  rw [dirEntry, hok.2.2 hsecond]
  exact (hmoved true).entry

theorem columns_settled_listed :
    ∃ m, run (guarded (tidy noVars) (stepMain noVars 1)) (boot noVars () [] []) (loginEvents ++ [press .right, press .down]) =
        some m ∧
      (m.mode ≠ .closing ∧ isListing m.s = false ∧ m.s.usr.total true = 1) ∧ ∀ c, Settled m.s.usr c :=
  ⟨_, rfl, by decide +kernel, (columns_settled noVars (fun _ => Nat.zero_le _) 0 () [] [] (loginEvents ++ [press .right, press .down])
    _ rfl (by decide +kernel) (by decide +kernel)).1⟩

/-- **The cursor leaves the list**: the key Up in the empty local column. -/
theorem cursor_leaves_list :
    ∃ m, run (stepMain noVars 1) (boot noVars () [] []) (loginEvents ++ [press .up]) = some m ∧ m.mode = .main ∧
      isListing m.s = false ∧ m.s.usr.total false = 0 ∧ m.s.usr.selected false = uintRange - 1 ∧ ¬ Settled m.s.usr false :=
  ⟨_, rfl, by decide +kernel, by decide +kernel, by decide +kernel, by decide +kernel, fun h =>
    absurd h.inList (by decide +kernel)⟩

end LwftpCe.App
