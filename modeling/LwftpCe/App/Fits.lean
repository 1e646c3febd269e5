import LwftpCe.App.Kept

/-!
# The length of the path

`app.path` has room for `RX_BUF_SIZE + 1` characters.  PWD fills in at most `RX_BUF_SIZE`, and a directory is entered only where
its name fits; but the file operations append a name without a look at the length, and the test for a directory wraps around
behind `RX_BUF_SIZE`.
-/

namespace LwftpCe.App

open Lib Lwftp List AppT

variable {V : Type} {F : Fileioc V} {n : ℕ} {s x : Prog V} {op : Op}
  {k : Ptr} {t : Prog V} {a : AppT V} {down : Key → Bool} {m : Main V}

def opPath (a : AppT V) : Op → Bytes
  | .enter => dirPath a.path a.dirEntry
  | .back => a.cutPath.path
  | .upload => if a.remoteColumn then a.path else filePath a.path a.localEntry
  | .delete | .move =>
    if a.remoteColumn = false ∨ a.remoteEntry.type = .dir then a.path else filePath a.path a.remoteEntry
  | .download => if a.remoteColumn = false then a.path else filePath a.path a.remoteEntry

def Fits (path : Bytes) : Prop := path.length ≤ rxBufSize + 1

/-- The keys start a file operation only if the name fits, and CWD only with a path that PWD can have told. -/
def roomy (m : Main V) : Event → Bool
  | .keys down _ =>
    match chooseOp down (moveCursor down m.s.usr) with
    | none => true
    | some .enter => m.s.usr.path.length ≤ rxBufSize
    | some op => (opPath (moveCursor down m.s.usr) op).length ≤ rxBufSize + 1
  | _ => true

/-! ### What the pieces do to the path -/

lemma length_cutPath_le (a : AppT V) : a.cutPath.path.length ≤ a.path.length := by
  unfold cutPath
  split
  · exact le_rfl
  · next h => exact length_cutLast_le h

lemma length_fails_le (k : Ptr) (r : Result) (a : AppT V) : (a.fails k r).path.length ≤ a.path.length := by
  unfold fails
  split_ifs
  · exact length_cutPath_le a
  · exact le_rfl

lemma Started.length_path {a : Api} {st : State} (h : Started a st k s x) : x.usr.path.length ≤ s.usr.path.length := by
  cases h with
  | accepted _ hw => rw [hw]
  | @refused r _ _ _ hw =>
    rw [hw]
    exact length_fails_le k r s.usr

lemma fits_of_turn {e : Tcp} (h : Turn (appCaller F n) e s t) (hs : Fits s.usr.path) : Fits t.usr.path := by
  refine h.usr (fun a => Fits a.path) (fun k b len u hu => ?_) (fun k d u _ _ hu => ?_) hs
  · rw [(same_source F n k b len u).1]
    exact hu
  · obtain ⟨_, _, _, _, _, hsink⟩ | ⟨-, p, _, -, hsink⟩ := sink_frame F n k d u
    · rw [hsink]
      exact hu
    · rw [hsink]
      calc (cstr (p.take rxBufSize)).length ≤ (p.take rxBufSize).length := (takeWhile_sublist _).length_le
        _ ≤ rxBufSize := by simp
        _ ≤ rxBufSize + 1 := Nat.le_succ _

lemma Called.length_path {r : Result} (h : Called F k r t x) : x.usr.path.length ≤ t.usr.path.length := by
  cases h with
  | fails => exact length_fails_le k r t.usr
  | hangs _ _ hw => rw [hw]
  | @lists _ f hrel hst =>
    refine hst.started.length_path.trans ?_
    change (f t.usr).path.length ≤ t.usr.path.length
    cases hrel with
    | login | cwd => exact le_rfl
    | del | stor => exact length_cutPath_le t.usr
    | move =>
      rw [dropEntry_path]
      exact length_cutPath_le t.usr
  | asks _ _ hst => exact hst.started.length_path.trans (Nat.zero_le _)
  | told => exact le_rfl
  | stores =>
    have hpath : (store F t.usr).path = t.usr.path := by
      unfold store
      split <;> rfl
    exact (congrArg List.length hpath).le
  | idle => exact le_rfl

lemma beginOf_path {b : Begin V} (h : beginOf F a op = some b) : (b.before a).path = opPath a op := by
  cases op with
  | enter | back =>
    cases h
    rfl
  | upload | delete | download =>
    obtain ⟨hc, h⟩ := Option.ite_none_left_eq_some.1 h
    cases h
    exact (if_neg hc).symm
  | move => cases h

lemma Ran.length_path {mode : Mode} (h : Ran F s op x mode) : x.usr.path.length ≤ max s.usr.path.length (opPath s.usr op).length := by
  cases h with
  | @begins b y hb hst =>
    rw [← beginOf_path hb]
    have hafter : (onApp b.after y).usr.path = y.usr.path := ((beginOf_proper hb).after y.usr).1
    rw [hafter]
    exact hst.started.length_path.trans (le_max_right _ _)
  | erases =>
    have hpath : (erase F s.usr).path = s.usr.path := dropEntry_path _
    exact (congrArg List.length hpath).le.trans (le_max_left _ _)
  | names ho hc ht =>
    subst ho
    have hop : opPath s.usr .move = filePath s.usr.path s.usr.remoteEntry := if_neg (by simp [hc, ht])
    rw [hop]
    exact le_max_right _ _
  | nothing => exact le_max_left _ _

/-! ### The runs -/

lemma chooseOp_enter (h : chooseOp down a = some .enter) : a.dirEntry.type = .dir ∧ usub rxBufSize a.path.length > 8 := by
  obtain ⟨-, h⟩ := Option.ite_none_right_eq_some.1 h
  by_cases hc : down .second ∧ a.dirEntry.type = .dir ∧ usub rxBufSize a.path.length > 8
  · exact hc.2
  · split_ifs at h <;> cases h

lemma roomy_opPath {new : Option ℕ} (hf : Fits m.s.usr.path)
    (hr : roomy m (.keys down new)) (hop : chooseOp down (moveCursor down m.s.usr) = some op) :
    Fits (opPath (moveCursor down m.s.usr) op) := by
  cases op with
  | enter =>
    have hlen : m.s.usr.path.length ≤ rxBufSize := by simpa [roomy, hop] using hr
    have hpath : (moveCursor down m.s.usr).path = m.s.usr.path := (same_moveCursor down m.s.usr).1
    have hroom := (chooseOp_enter hop).2
    rw [hpath, usub_of_le (by decide) hlen] at hroom
    have hname : (moveCursor down m.s.usr).dirEntry.str.length ≤ 8 :=
      (takeWhile_sublist _).length_le.trans (moveCursor down m.s.usr).dirEntry.name.2.le
    simp only [Fits, opPath, dirPath, hpath, length_append, length_cons]
    omega
  | back => exact (length_cutPath_le _).trans ((same_moveCursor down m.s.usr).1 ▸ hf)
  | upload | delete | download | move =>
    simp only [roomy, hop, decide_eq_true_eq] at hr
    exact hr

lemma roomy_began (m : Main V) (b : Option Began) (e : Event) : roomy { m with began := b } e = roomy m e := by
  cases e <;> rfl

lemma opPath_setNew (a : AppT V) (new : Option ℕ) (op : Op) : opPath { a with tcpNew := new } op = opPath a op := by
  cases op with
  | back =>
    simp only [opPath, cutPath]
    cases cutLast 47 a.path <;> rfl
  | _ => rfl

lemma fits_step {m' : Main V} {e : Event} (h : Fits m.s.usr.path) (hok : roomy m e) (hs : Effect F n m e m') :
    Fits m'.s.usr.path := by
  have hle : m'.s.usr.path.length ≤ m.s.usr.path.length → Fits m'.s.usr.path := fun hx => hx.trans h
  cases hs with
  | connect _ hrep =>
    refine hle ?_
    rcases hrep.usr with hu | hu <;> exact (congrArg (fun a => a.path.length) hu).le
  | @quiet _ new _ _ _ hq => exact fits_of_turn hq.turn h
  | silent _ _ hcall => exact fits_of_turn hcall.turn h
  | @called _ _ _ t _ _ _ _ hcall _ hx =>
    have ht : Fits t.usr.path := fits_of_turn hcall.turn h
    exact hx.length_path.trans ht
  | started | noInput | uploaded => exact h
  | @cursor down new _ hop => exact ((same_moveCursor down _).1).symm ▸ h
  | @runs down new op x mode b _ hop hx =>
    have hfit := roomy_opPath h hok hop
    refine hx.length_path.trans (max_le ?_ ?_)
    · exact ((same_moveCursor down m.s.usr).1).symm ▸ h
    · exact (congrArg List.length (opPath_setNew (moveCursor down m.s.usr) new op)).le.trans hfit
  | input _ _ hst => exact hst.started.length_path.trans h
  | downloaded => exact hle (length_cutPath_le m.s.usr)
  | quit _ hu =>
    refine hle (congrArg (fun a => a.path.length) hu.usr).le

/-- **The path fits** in every run of roomy events, and with it the name that a roomy event appends. -/
theorem path_fits (F : Fileioc V) (n : ℕ) (vars : V) (userName password : Bytes) (es : List Event) (m : Main V)
    (h : run (guarded roomy (stepMain F (n + 1))) (boot F vars userName password) es = some m) :
    Fits m.s.usr.path ∧ ∀ down new op, roomy m (.keys down new) → chooseOp down (moveCursor down m.s.usr) = some op →
      Fits (opPath (moveCursor down m.s.usr) op) := by
  have hfit : Fits m.s.usr.path := (run_steady (fun _ _ h => h) roomy_began
    (fun m e m' _ _ hi hok hs => fits_step hi hok hs) (Nat.zero_le _) h).2
  exact ⟨hfit, fun down new op hr hop => roomy_opPath hfit hr hop⟩

theorem path_fits_deleted :
    ∃ m, run (guarded roomy (stepMain noVars 1)) (boot noVars () [] []) (loginEvents ++ deleteEvents) = some m ∧
      m.s.usr.path = ascii "/" ∧ Fits m.s.usr.path :=
  ⟨_, rfl, by decide +kernel, (path_fits noVars 0 () [] [] (loginEvents ++ deleteEvents) _ rfl).1⟩

/-- **The path runs over**: PWD tells a path of 255 characters, and a file is deleted in it. -/
theorem path_overflows : ∃ m, run (stepMain noVars 1) (boot noVars () [] []) (loginEvents.dropLast ++ [.tcp (.controlRecv ⟨0, 536⟩
          [⟨ascii "257 \"" ++ 47 :: List.replicate 254 120 ++ ascii "\"", []⟩] true) (some 536), press .right, press .zoom]) =
        some m ∧ m.s.usr.path.length = 261 ∧ ¬ Fits m.s.usr.path :=
  ⟨_, rfl, by decide +kernel, by unfold Fits; decide +kernel⟩

end LwftpCe.App
