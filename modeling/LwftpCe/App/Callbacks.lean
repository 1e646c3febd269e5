import LwftpCe.App.Main
import LwftpCe.Lwftp.Turns

/-!
# The application as a caller of the session

The callbacks only set the caller's fields and call the API (`appCaller_lawful`), so every event of the program is a sequence of
moves of the session (`react_moves`).
-/

namespace LwftpCe.App

open Lib Lwftp Option

variable {V : Type} {c : Caller Ptr (AppT V)} {s : Prog V} {k : Ptr}

/-! ### Lawfulness -/

lemma Calls.trans {K U : Type} {c : Caller K U} {s m t : Session K U} (h : Calls c s m) (h' : Calls c m t) : Calls c s t := by
  induction h with
  | refl => exact h'
  | set user usr _ ih => exact .set user usr (ih h')
  | api a _ ih => exact .api a (ih h')

section Calls

variable {c : Caller Ptr (AppT V)} (F : Fileioc V)

lemma calls_onApp (f : AppT V → AppT V) (s : Prog V) : Calls c s (onApp f s) := .set s.user (f s.usr) (.refl _)

lemma calls_onUser (f : User Ptr → User Ptr) (s : Prog V) : Calls c s (onUser f s) := .set (f s.user) s.usr (.refl _)

lemma calls_api (a : Api) (s : Prog V) : Calls c s (callApi c a s) := .api a (.refl _)

lemma calls_begin (f : AppT V → AppT V) (g : User Ptr → User Ptr) (a : Api) (s : Prog V) :
    Calls c s (callApi c a (onUser g (onApp f s))) :=
  Calls.trans (calls_onApp f s) (Calls.trans (calls_onUser g _) (calls_api a _))

lemma calls_appendName (f : FileT) (s : Prog V) : Calls c s (appendName f s) :=
  Calls.trans (calls_onApp _ s) (calls_onUser _ _)

lemma calls_getRemoteFiles (s : Prog V) : Calls c s (utilGetRemoteFiles (callApi c) s) := by
  unfold utilGetRemoteFiles
  exact calls_begin ..

lemma calls_getDir (s : Prog V) : Calls c s (utilGetDir (callApi c) s) := by
  unfold utilGetDir
  exact calls_begin ..

lemma calls_changeDir (s : Prog V) : Calls c s (utilChangeDir (callApi c) s) := by
  unfold utilChangeDir
  exact calls_begin ..

lemma calls_callback {next : Prog V → Prog V} (h : ∀ s, Calls c s (next s)) (r : Result) (s : Prog V) :
    Calls c s (callback next r s) := by
  unfold callback
  split_ifs
  · exact .refl s
  · exact calls_onApp _ s
  · exact h s

lemma calls_appDone (k : Ptr) (r : Result) (s : Prog V) : Calls c s (appDone F (callApi c) k r s) := by
  cases k with
  | ftpConnectCallback =>
    simp only [appDone, ftpConnectCallback]
    split_ifs
    · exact .refl s
    · exact Calls.trans (calls_onApp _ s) (Calls.trans (calls_api _ _) (calls_onApp _ _))
    · exact Calls.trans (calls_onApp _ s) (calls_getRemoteFiles _)
  | ftpListCallback => exact calls_callback calls_getDir r s
  | ftpPwdCallback => exact calls_callback (calls_onApp _) r s
  | ftpCwdCallback => exact calls_callback calls_getRemoteFiles r s
  | ftpDelCallback | ftpMoveCallback => exact calls_callback (fun s => Calls.trans (calls_onApp _ s) (calls_getRemoteFiles _)) r s
  | ftpStorCallback =>
    simp only [appDone, ftpStorCallback]
    split_ifs
    · exact .refl s
    · exact Calls.trans (calls_onApp _ s) (calls_onApp _ _)
    · exact Calls.trans (calls_onApp _ s) (calls_getRemoteFiles _)
  | ftpRetrCallback =>
    simp only [appDone, ftpRetrCallback]
    split_ifs
    · exact .refl s
    · exact calls_onApp _ s
    · split
      · exact calls_onApp _ s
      · exact Calls.trans (calls_onApp _ s) (calls_onApp _ _)
  | _ => exact .refl s

end Calls

lemma appDone_inert (F : Fileioc V) (k : Ptr) (r : Result) (s : Prog V) :
    ∃ user usr, appDone F (fun _ s => s) k r s = { s with user, usr } := by
  have hcb : ∀ next : Prog V → Prog V, (∀ s, ∃ user usr, next s = { s with user, usr }) →
      ∃ user usr, callback next r s = { s with user, usr } := by
    intro next h
    unfold callback
    split_ifs
    · exact ⟨s.user, s.usr, rfl⟩
    · exact ⟨s.user, _, rfl⟩
    · exact h s
  cases k with
  | ftpConnectCallback =>
    simp only [appDone, ftpConnectCallback]
    split_ifs
    · exact ⟨s.user, s.usr, rfl⟩
    · exact ⟨s.user, _, rfl⟩
    · exact ⟨_, _, rfl⟩
  | ftpListCallback | ftpPwdCallback | ftpCwdCallback | ftpDelCallback | ftpMoveCallback => exact hcb _ fun s => ⟨_, _, rfl⟩
  | ftpStorCallback =>
    simp only [appDone, ftpStorCallback]
    split_ifs
    · exact ⟨s.user, s.usr, rfl⟩
    · exact ⟨s.user, _, rfl⟩
    · exact ⟨_, _, rfl⟩
  | ftpRetrCallback =>
    simp only [appDone, ftpRetrCallback]
    split_ifs
    · exact ⟨s.user, s.usr, rfl⟩
    · exact ⟨s.user, _, rfl⟩
    · split
      · exact ⟨s.user, _, rfl⟩
      · exact ⟨s.user, _, rfl⟩
  | _ => exact ⟨s.user, s.usr, rfl⟩

lemma appCaller_lawful (F : Fileioc V) (n : ℕ) : Lawful (appCaller F n) := by
  induction n with
  | zero => exact .base (appDone_inert F)
  | succ n ih => exact .step (fun _ _ _ => appCaller F n) (fun _ _ _ => ih) (calls_appDone F)

/-! ### Operations as moves -/

section Operations

variable {c : Caller Ptr (AppT V)} {F : Fileioc V} {s s' : Prog V}

lemma calls_uploadFile (h : utilUploadFile F (callApi c) s = some s') : Calls c s s' := by
  obtain ⟨-, h⟩ := ite_none_left_eq_some.1 h
  cases h
  exact Calls.trans (calls_appendName _ s) (calls_begin ..)

lemma calls_downloadFile (h : utilDownloadFile (callApi c) s = some s') : Calls c s s' := by
  obtain ⟨-, h⟩ := ite_none_left_eq_some.1 h
  cases h
  exact Calls.trans (calls_appendName _ s) (calls_begin ..)

lemma calls_moveFile (h : utilMoveFile s = some s') : Calls c s s' := by
  obtain ⟨-, h⟩ := ite_none_left_eq_some.1 h
  cases h
  exact Calls.trans (calls_appendName _ s) (calls_onApp _ _)

lemma calls_deleteFile (F : Fileioc V) (s : Prog V) : Calls c s (utilDeleteFile F (callApi c) s) := by
  simp only [utilDeleteFile]
  split_ifs
  · exact Calls.trans (calls_onApp _ s) (calls_onApp _ _)
  · exact .refl s
  · exact Calls.trans (calls_onApp _ s) (Calls.trans (calls_appendName _ _)
      (Calls.trans (calls_onUser _ _) (Calls.trans (calls_api _ _) (calls_onApp _ _))))

lemma calls_runOp (F : Fileioc V) (s : Prog V) (op : Op) : Calls c s (runOp F (callApi c) s op).1 := by
  cases op with
  | enter | back =>
    simp only [runOp]
    exact Calls.trans (calls_onApp _ s) (Calls.trans (calls_changeDir _) (calls_onApp _ _))
  | delete => exact calls_deleteFile F s
  | upload =>
    cases h : utilUploadFile F (callApi c) s with
    | none => simpa only [runOp, h] using .refl s
    | some s' => simpa only [runOp, h] using calls_uploadFile h
  | download =>
    cases h : utilDownloadFile (callApi c) s with
    | none => simpa only [runOp, h] using .refl s
    | some s' => simpa only [runOp, h] using calls_downloadFile h
  | move =>
    cases h : utilMoveFile s with
    | none => simpa only [runOp, h] using .refl s
    | some s' => simpa only [runOp, h] using calls_moveFile h

end Operations

lemma calls_moveEnd (str : Bytes) (s : Prog V) : Calls c s (utilMoveEnd (callApi c) str s) := by
  simp only [utilMoveEnd]
  split_ifs
  · exact .refl s
  · exact calls_begin ..
  · exact calls_begin ..

lemma calls_downloadEnd (s : Prog V) : Calls c s (utilDownloadEnd s) := by
  exact Calls.trans (calls_onApp _ s) (calls_onUser _ _)

lemma settle_s (m : Main V) : m.settle.s = m.s := by
  unfold Main.settle
  split_ifs <;> rfl

lemma enabled_setNew (e : Tcp) (new : Option ℕ) (s : Prog V) : e.enabled (setNew new s) = e.enabled s := by
  cases e <;> rfl

lemma Wf.setNew (h : Wf s) (new : Option ℕ) : Wf (setNew new s) :=
  h.frame s.user _ s.trace s.fault s.dataState

lemma react_moves {F : Fileioc V} {n : ℕ} {m m' : Main V} {e : Event} (h : Wf m.s) (hf : m.s.fault = false)
    (hs : react F n m e = some m') : Moves m.s m'.s := by
  have hlaw := appCaller_lawful F n
  have hcalls : ∀ {s s' : Prog V}, Calls (appCaller F n) s s' → s.fault = false → Moves s s' := fun hc hf =>
    hc.moves hlaw.fault hlaw.moves hf
  cases e with
  | connect new conn =>
    obtain ⟨-, hs⟩ := ite_none_right_eq_some.1 hs
    cases hs
    exact callApi_moves hlaw.moves (.connect new conn) hf
  | tcp e new =>
    obtain ⟨⟨-, he⟩, hs⟩ := ite_none_right_eq_some.1 hs
    cases hs
    exact (hcalls (calls_onApp _ m.s) hf).trans (handle_moves hlaw.moves (Wf.setNew h new) hf e he)
  | started =>
    obtain ⟨-, hs⟩ := ite_none_right_eq_some.1 hs
    split_ifs at hs <;> cases hs <;> exact .refl
  | keys down new =>
    obtain ⟨-, hs⟩ := ite_none_right_eq_some.1 hs
    cases hs
    refine hcalls (Calls.trans (m := setNew new m.s) (calls_onApp _ m.s) ?_) hf
    unfold pressKeys
    simp only
    split
    · exact calls_onApp _ _
    · exact Calls.trans (calls_onApp _ _) (calls_runOp F _ _)
  | input str =>
    obtain ⟨-, hs⟩ := ite_none_right_eq_some.1 hs
    cases hs
    exact hcalls (calls_moveEnd str m.s) hf
  | leave clear =>
    obtain ⟨-, hs⟩ := ite_none_right_eq_some.1 hs
    unfold leaveLoop at hs
    split at hs
    · cases hs
      exact .refl
    · cases hs
      exact hcalls (calls_downloadEnd m.s) hf
    · cases hs
  | quit =>
    obtain ⟨-, hs⟩ := ite_none_right_eq_some.1 hs
    cases hs
    exact callApi_moves hlaw.moves .close hf

/-! ### The start of an operation -/

def Ptr.isOp : Ptr → Bool
  | .ftpListCallback | .ftpPwdCallback | .ftpCwdCallback | .ftpDelCallback | .ftpMoveCallback | .ftpStorCallback
  | .ftpRetrCallback => true
  | _ => false

def AppT.fails (k : Ptr) (r : Result) (a : AppT V) : AppT V :=
  { (if k = .ftpStorCallback then a.cutPath else a) with ftpResult := r, busy := false }

lemma appDone_inprogress (F : Fileioc V) (api : Api → Prog V → Prog V) (k : Ptr) (s : Prog V) :
    appDone F api k .inprogress s = s := by
  cases k <;> rfl

lemma appDone_fails (F : Fileioc V) (api : Api → Prog V → Prog V) (hk : k.isOp) {r : Result}
    (h1 : r ≠ .inprogress) (h2 : r ≠ .ok) (s : Prog V) : appDone F api k r s = onApp (AppT.fails k r) s := by
  have hcb : ∀ next : Prog V → Prog V, callback next r s = failed r s := fun next => by simp [callback, h1, h2]
  cases k with
  | ftpListCallback | ftpPwdCallback | ftpCwdCallback => exact hcb _
  | ftpDelCallback => exact hcb fun s => utilGetRemoteFiles api (onApp AppT.cutPath s)
  | ftpMoveCallback => exact hcb fun s => utilGetRemoteFiles api (onApp (fun a => a.cutPath.dropEntry) s)
  | ftpStorCallback =>
    simp only [appDone, ftpStorCallback, h1, h2, if_false, if_true, ne_eq, not_false_eq_true]
    rfl
  | ftpRetrCallback =>
    simp only [appDone, ftpRetrCallback, h1, h2, if_false, if_true, ne_eq, not_false_eq_true]
    rfl
  | _ => cases hk

lemma appCaller_done (F : Fileioc V) (n : ℕ) : ∃ api, (appCaller F n).done = appDone F api := by
  cases n with
  | zero | succ _ => exact ⟨_, rfl⟩

/-- What becomes of a call that starts an operation with the callback `k`: it is accepted, or the callback is told at
once. -/
inductive Started (a : Api) (st : State) (k : Ptr) (s x : Prog V) : Prop
  | accepted (hu : x.user = s.user) (hw : x.usr = s.usr) (hd : x.results = .done k .inprogress :: s.results)
      (hs : s.controlState = .logged) (hx : x.controlState = st)
  | refused {r : Result} (h₁ : r ≠ .inprogress) (h₂ : r ≠ .ok) (hu : x.user = s.user) (hw : x.usr = s.usr.fails k r)
      (hd : x.results = .done k r :: s.results) (hs : x.controlState = s.controlState) (hp : x.controlPcb = s.controlPcb)
      (hn : a.ready s = false)

end LwftpCe.App
