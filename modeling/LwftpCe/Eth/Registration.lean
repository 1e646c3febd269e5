import LwftpCe.Eth.Reach

/-!
# Registration, and the default netif
-/

namespace LwftpCe.Eth

open Lib Buffer List Function EthDevice Option BitVec

variable {n : ℕ} {s : Sys Driver}

/-! ### The numbers -/

lemma getLsbD_setBit (u : BitVec 8) (hn : n < 8) (k : ℕ) : (u ||| 1#8 <<< n).getLsbD k = (u.getLsbD k || decide (k = n)) := by
  by_cases hk : k = n
  · simp [hk, hn]
  · simp [hk]
    omega

lemma getLsbD_clearBit (u : BitVec 8) (hn : n < 8) (k : ℕ) : (u &&& ~~~(1#8 <<< n)).getLsbD k = (u.getLsbD k && !decide (k = n)) := by
  have h := getLsbD_setBit 0#8 hn k
  simp only [zero_or, getLsbD_zero, Bool.false_or] at h
  rw [getLsbD_and, getLsbD_not, h]
  by_cases hk : k < 8
  · simp [hk]
  · rw [getLsbD_of_ge u k (by omega)]
    rfl

lemma ifnumAssigned_free {u : BitVec 8} (h : u ≠ 0xFF) : ifnumAssigned u < 8 ∧ u.getLsbD (ifnumAssigned u) = false := by
  unfold ifnumAssigned
  cases hfind : (List.range 8).find? fun n => !u.getLsbD n with
  | some n =>
    have hmem := mem_of_find?_eq_some hfind
    have hbit := List.find?_some hfind
    exact ⟨mem_range.1 hmem, by simpa using hbit⟩
  | none =>
    rw [List.find?_eq_none] at hfind
    refine absurd (eq_of_getLsbD_eq fun n hn => ?_) h
    have hbit : u.getLsbD n = true := by simpa using hfind n (mem_range.2 hn)
    exact hbit.trans ((by decide : ∀ n < 8, (255#8).getLsbD n = true) n hn).symm

def Face.num (F : Face) (d : ℕ) : Option ℕ := (F.device d).map Prod.fst

/-- The numbers in use, the netifs and the devices agree. -/
structure Roll (F : Face) : Prop where
  nodup : F.netifList.Nodup
  mem : ∀ d, d ∈ F.netifList ↔ F.num d ≠ none
  used : ∀ n, F.ifnumsUsed.getLsbD n = true ↔ ∃ d, F.num d = some n
  distinct : ∀ d e n, F.num d = some n → F.num e = some n → d = e

namespace Roll

variable {F G : Face} {d i n : ℕ} {w : Driver}

lemma congr (h : Roll F) (hlist : G.netifList = F.netifList) (hused : G.ifnumsUsed = F.ifnumsUsed) (hnum : G.num = F.num) :
    Roll G := by
  refine ⟨?_, ?_, ?_, ?_⟩
  · rw [hlist]
    exact h.nodup
  · rw [hlist, hnum]
    exact h.mem
  · rw [hused, hnum]
    exact h.used
  · rw [hnum]
    exact h.distinct

lemma lt (h : Roll F) (hd : F.num d = some n) : n < 8 := by
  have hbit := (h.used n).2 ⟨d, hd⟩
  by_contra hge
  rw [getLsbD_of_ge F.ifnumsUsed n (by omega)] at hbit
  cases hbit

lemma update_num {x : Option (ℕ × Option ℕ × Bool)} (hx : x.map Prod.fst = F.num d) :
    (fun e => (update F.device d x e).map Prod.fst) = F.num := by
  funext e
  rcases eq_or_ne e d with rfl | hne
  · rw [update_self, hx]
  · rw [update_of_ne hne, Face.num]

lemma setRing (h : Roll F) (d i : ℕ) : Roll (F.setRing d i) := by
  refine h.congr rfl rfl (update_num ?_)
  rw [Option.map_map]
  rfl

lemma report (h : Roll F) (d : ℕ) (wValue : Bool) : Roll (F.report d wValue) := by
  have hnum : (fun e => (update F.device d ((F.device d).map fun x => (x.1, x.2.1, wValue)) e).map Prod.fst) = F.num := by
    refine update_num ?_
    rw [Option.map_map]
    rfl
  unfold Face.report
  simp only
  split_ifs <;> exact h.congr rfl rfl hnum

lemma reports (h : Roll F) (d : ℕ) (rs : List Bool) : Roll (rs.foldl (fun F r => F.report d r) F) := by
  induction rs generalizing F with
  | nil => exact h
  | cons r rs ih => exact ih (h.report d r)

lemma add (h : Roll F) (hd : F.device d = none) (hfree : F.ifnumsUsed ≠ 0xFF) : Roll (F.add d) := by
  obtain ⟨hlt, hbit⟩ := ifnumAssigned_free hfree
  have hnone : F.num d = none := by rw [Face.num, hd]; rfl
  have hself : (F.add d).num d = some (ifnumAssigned F.ifnumsUsed) := by
    simp only [Face.num, Face.add, update_self]
    rfl
  have hother : ∀ {e : ℕ}, e ≠ d → (F.add d).num e = F.num e := by
    intro e he
    simp only [Face.num, Face.add, update_of_ne he]
  have hnew : ∀ e, F.num e ≠ some (ifnumAssigned F.ifnumsUsed) := by
    intro e he
    have := (h.used _).2 ⟨e, he⟩
    rw [hbit] at this
    cases this
  refine ⟨?_, ?_, ?_, ?_⟩
  · refine nodup_cons.2 ⟨fun hmem => ?_, h.nodup⟩
    exact (h.mem d).1 hmem hnone
  · intro e
    rcases eq_or_ne e d with rfl | hne
    · rw [hself]
      exact ⟨fun _ => nofun, fun _ => mem_cons_self ..⟩
    · rw [hother hne, ← h.mem e]
      exact ⟨fun hm => (mem_cons.1 hm).resolve_left hne, fun hm => mem_cons_of_mem d hm⟩
  · intro n
    have hor : (F.add d).ifnumsUsed.getLsbD n = (F.ifnumsUsed.getLsbD n || decide (n = ifnumAssigned F.ifnumsUsed)) :=
      getLsbD_setBit _ hlt n
    rw [hor, Bool.or_eq_true, h.used n, decide_eq_true_eq]
    constructor
    · rintro (⟨e, he⟩ | rfl)
      · have hne : e ≠ d := by
          rintro rfl
          rw [hnone] at he
          cases he
        exact ⟨e, (hother hne).trans he⟩
      · exact ⟨d, hself⟩
    · rintro ⟨e, he⟩
      rcases eq_or_ne e d with rfl | hne
      · rw [hself] at he
        exact .inr (Option.some.inj he).symm
      · rw [hother hne] at he
        exact .inl ⟨e, he⟩
  · intro e1 e2 n h1 h2
    rcases eq_or_ne e1 d with rfl | hne1
    · rcases eq_or_ne e2 e1 with rfl | hne2
      · rfl
      · rw [hself] at h1
        rw [hother hne2, ← h1] at h2
        exact absurd h2 (hnew e2)
    · rw [hother hne1] at h1
      rcases eq_or_ne e2 d with rfl | hne2
      · rw [hself] at h2
        rw [← h2] at h1
        exact absurd h1 (hnew e1)
      · rw [hother hne2] at h2
        exact h.distinct e1 e2 n h1 h2

lemma remove (h : Roll F) (hd : F.num d = some n) : Roll (F.remove d n) := by
  have hself : (F.remove d n).num d = none := by
    simp only [Face.num, Face.remove, update_self]
    rfl
  have hother : ∀ {e : ℕ}, e ≠ d → (F.remove d n).num e = F.num e := by
    intro e he
    simp only [Face.num, Face.remove, update_of_ne he]
  have hin : ∀ {e k : ℕ}, (F.remove d n).num e = some k → e ≠ d ∧ F.num e = some k := by
    intro e k he
    have hne : e ≠ d := by
      rintro rfl
      rw [hself] at he
      cases he
    exact ⟨hne, (hother hne) ▸ he⟩
  refine ⟨h.nodup.erase d, ?_, ?_, ?_⟩
  · intro e
    change e ∈ F.netifList.erase d ↔ _
    rw [h.nodup.mem_erase_iff, h.mem e]
    rcases eq_or_ne e d with rfl | hne
    · rw [hself]
      exact ⟨fun hm => absurd rfl hm.1, fun hm => absurd rfl hm⟩
    · rw [hother hne]
      exact ⟨fun hm => hm.2, fun hm => ⟨hne, hm⟩⟩
  · intro k
    have hand : (F.remove d n).ifnumsUsed.getLsbD k = (F.ifnumsUsed.getLsbD k && !decide (k = n)) :=
      getLsbD_clearBit _ (h.lt hd) k
    rw [hand, Bool.and_eq_true, h.used k, Bool.not_eq_true', decide_eq_false_iff_not]
    constructor
    · rintro ⟨⟨e, he⟩, hk⟩
      have hne : e ≠ d := by
        rintro rfl
        rw [hd] at he
        exact hk (Option.some.inj he).symm
      exact ⟨e, (hother hne).trans he⟩
    · rintro ⟨e, he⟩
      obtain ⟨hne, hold⟩ := hin he
      refine ⟨⟨e, hold⟩, fun hk => hne ?_⟩
      exact h.distinct e d k hold (hk ▸ hd)
  · intro e1 e2 k h1 h2
    exact h.distinct e1 e2 k (hin h1).2 (hin h2).2

lemma enrolled (h : Roll F) (he : Enrolled d F G) : Roll G := by
  cases he with
  | same => exact h
  | ring i hd => exact h.setRing d i
  | add hd hfree => exact h.add hd hfree
  | addRing i hd hfree => exact (h.add hd hfree).setRing d i

lemma closed (h : Roll w.face) (hc : Closed d w G) : Roll G := by
  cases hc with
  | null hd => exact h.congr rfl rfl rfl
  | reset hd herr => exact h
  | @removed dev hd herr =>
    refine h.remove ?_
    change ((w.data d).map face).map Prod.fst = _
    rw [hd]
    rfl

lemma step {e : Event} (h : Roll w.face) (hs : FaceStep w e G) : Roll G := by
  cases hs with
  | connected d => exact h.congr rfl rfl rfl
  | enabled d a he =>
    have hgone : Roll (w.face.setGone d false) := h.congr rfl rfl rfl
    exact hgone.enrolled he
  | disabled d hc => exact h.closed hc
  | disconnected d hc => exact (h.closed hc).congr rfl rfl rfl
  | reports d data => exact h.reports d _
  | same => exact h

lemma start : Roll ({} : Driver).face := by
  refine ⟨nodup_nil, ?_, ?_, ?_⟩
  · intro d
    exact ⟨nofun, fun h => absurd rfl h⟩
  · intro n
    refine ⟨fun h => ?_, fun ⟨d, hd⟩ => by cases hd⟩
    rw [show (({} : Driver).face.ifnumsUsed) = 0#8 from rfl, getLsbD_zero] at h
    cases h
  · intro d e n hd
    cases hd

end Roll

/-! ### The default netif -/

def Face.connected (F : Face) (d : ℕ) : Bool := (F.device d).any fun x => x.2.2

/-- The default netif is connected, and is only missing when no netif is. -/
structure Routed (F : Face) : Prop where
  chosen : ∀ d, F.netifDefault = some d → F.connected d = true
  missing : F.netifDefault = none → ∀ d, F.connected d = false
  flag : F.netifDefault ≠ none → F.defaultNetifSet = true

def Face.others (F : Face) (d : ℕ) : Bool := F.netifList.any fun e => e ≠ d ∧ F.connected e = true

/-- The reports of a transfer leave a default netif: it is there, or can be chosen, when the device becomes connected, and
the device was not the default with others connected when it becomes disconnected. -/
def Face.reportable (F : Face) (d : ℕ) (reports : List Bool) : Bool :=
  (true ∈ reports → F.defaultNetifSet = true → F.netifDefault ≠ none) ∧
    (false ∈ reports → F.netifDefault = some d → F.others d = false)

def routable (s : Sys Driver) : Event → Bool
  | .disabled d | .disconnected d =>
    (s.world.data d).isSome ∧
      (s.world.ethDisabledWithError = true ∨ s.world.netifDefault ≠ some d ∨ s.world.face.others d = false)
  | .interrupted d true data => s.world.face.reportable d (reportsOf d data s.world)
  | _ => true

namespace Routed

variable {F G : Face} {d e i : ℕ} {x : Option (ℕ × Option ℕ × Bool)} {rs : List Bool}

lemma congr (h : Routed F) (hdef : G.netifDefault = F.netifDefault) (hset : G.defaultNetifSet = F.defaultNetifSet)
    (hcon : ∀ d, G.connected d = F.connected d) : Routed G := by
  refine ⟨?_, ?_, ?_⟩
  · rw [hdef]
    intro d hd
    rw [hcon]
    exact h.chosen d hd
  · rw [hdef]
    intro hnone d
    rw [hcon]
    exact h.missing hnone d
  · rw [hdef, hset]
    exact h.flag

lemma connected_self (hG : G.device = update F.device d x) : G.connected d = x.any fun x => x.2.2 := by
  rw [Face.connected, hG, update_self]

lemma connected_other (hG : G.device = update F.device d x) (he : e ≠ d) : G.connected e = F.connected e := by
  rw [Face.connected, hG, update_of_ne he, Face.connected]

lemma others_false (hroll : Roll F) (h : F.others d = false) (he : e ≠ d) : F.connected e = false := by
  by_contra hcon
  rw [Bool.not_eq_false] at hcon
  have hmem : e ∈ F.netifList := by
    refine (hroll.mem e).2 fun hnone => ?_
    rw [Face.num, map_eq_none_iff] at hnone
    rw [Face.connected, hnone] at hcon
    cases hcon
  have := any_eq_false.1 h e hmem
  simp [he, hcon] at this

lemma setRing (h : Routed F) (d i : ℕ) : Routed (F.setRing d i) := by
  refine h.congr rfl rfl fun e => ?_
  rcases eq_or_ne e d with rfl | hne
  · rw [connected_self rfl, Face.connected]
    cases F.device e <;> rfl
  · exact connected_other rfl hne

lemma add (h : Routed F) (hd : F.device d = none) : Routed (F.add d) := by
  refine h.congr rfl rfl fun e => ?_
  rcases eq_or_ne e d with rfl | hne
  · rw [connected_self rfl, Face.connected, hd]
    rfl
  · exact connected_other rfl hne

lemma enrolled (h : Routed F) (he : Enrolled d F G) : Routed G := by
  cases he with
  | same => exact h
  | ring i hd => exact h.setRing d i
  | add hd hfree => exact h.add hd
  | addRing i hd hfree => exact (h.add hd).setRing d i

lemma remove (h : Routed F) (hroll : Roll F) {n : ℕ} (hok : F.netifDefault ≠ some d ∨ F.others d = false) :
    Routed (F.remove d n) := by
  have hself : (F.remove d n).connected d = false := connected_self (x := none) rfl
  have hother : ∀ {e : ℕ}, e ≠ d → (F.remove d n).connected e = F.connected e := fun he => connected_other rfl he
  by_cases hdef : F.netifDefault = some d
  · -- the default is removed: then it was the only one
    have hnone : (F.remove d n).netifDefault = none := if_pos hdef
    have hquiet := hok.resolve_left (not_not.2 hdef)
    refine ⟨fun e he => ?_, fun _ e => ?_, fun hne => absurd hnone hne⟩
    · rw [hnone] at he
      cases he
    · rcases eq_or_ne e d with rfl | hne
      · exact hself
      · rw [hother hne]
        exact others_false hroll hquiet hne
  · have hsame : (F.remove d n).netifDefault = F.netifDefault := if_neg hdef
    refine ⟨fun e he => ?_, fun hnone e => ?_, fun hne => h.flag (hsame ▸ hne)⟩
    · rw [hsame] at he
      have hne : e ≠ d := by
        rintro rfl
        exact hdef he
      rw [hother hne]
      exact h.chosen e he
    · rw [hsame] at hnone
      rcases eq_or_ne e d with rfl | hne
      · exact hself
      · rw [hother hne]
        exact h.missing hnone e

lemma closed {w : Driver} (h : Routed w.face) (hroll : Roll w.face) (hc : Closed d w G)
    (hok : w.ethDisabledWithError = true ∨ w.netifDefault ≠ some d ∨ w.face.others d = false) : Routed G := by
  cases hc with
  | null hd => exact h.congr rfl rfl fun _ => rfl
  | reset hd herr => exact h
  | removed hd herr => exact h.remove hroll (hok.resolve_left (by rw [herr]; exact Bool.false_ne_true))

lemma report (h : Routed F) (hroll : Roll F) (hd : F.device d ≠ none) {r : Bool}
    (hok : F.reportable d (r :: rs) = true) : Routed (F.report d r) ∧ (F.report d r).reportable d rs = true := by
  simp only [Face.reportable, decide_eq_true_eq] at hok
  obtain ⟨hup, hdown⟩ := hok
  set G : Face := { F with device := update F.device d ((F.device d).map fun x => (x.1, x.2.1, r)) } with hG
  have hself : G.connected d = r := by
    obtain ⟨x, hx⟩ := ne_none_iff_exists'.1 hd
    rw [connected_self rfl, hx]
    rfl
  have hother : ∀ {e : ℕ}, e ≠ d → G.connected e = F.connected e := fun he => connected_other rfl he
  have hothers : G.others d = F.others d := by
    unfold Face.others
    congr 1
    funext e
    by_cases he : e = d
    · simp [he]
    · simp [he, hother he]
  cases r with
  | true =>
    cases hset : F.defaultNetifSet with
    | true =>
      have heq : F.report d true = G := by
        exact if_pos hset
      have hdef : F.netifDefault ≠ none := hup (mem_cons_self ..) hset
      rw [heq]
      refine ⟨⟨fun e he => ?_, fun hnone => absurd hnone hdef, fun _ => hset⟩, ?_⟩
      · rcases eq_or_ne e d with rfl | hne
        · exact hself
        · rw [hother hne]
          exact h.chosen e he
      · simp only [Face.reportable, decide_eq_true_eq]
        refine ⟨fun _ _ => hdef, fun hf hd' => ?_⟩
        rw [hothers]
        exact hdown (mem_cons_of_mem _ hf) hd'
    | false =>
      -- without the flag there was no default, and so nobody was connected
      have hnone : F.netifDefault = none := by
        by_contra hne
        rw [h.flag hne] at hset
        cases hset
      have heq : F.report d true = { G with netifDefault := some d, defaultNetifSet := true } := by
        exact if_neg (Bool.eq_false_iff.1 hset)
      rw [heq]
      refine ⟨⟨fun e he => ?_, nofun, fun _ => rfl⟩, ?_⟩
      · cases he
        exact hself
      · simp only [Face.reportable, decide_eq_true_eq]
        refine ⟨fun _ _ => nofun, fun _ _ => ?_⟩
        change G.others d = false
        rw [hothers]
        refine any_eq_false.2 fun e _ => ?_
        simp [h.missing hnone e]
  | false =>
    by_cases hdef : F.netifDefault = some d
    · have heq : F.report d false = { G with netifDefault := none, defaultNetifSet := false } := by
        exact if_pos hdef
      have hquiet := hdown (mem_cons_self ..) hdef
      rw [heq]
      refine ⟨⟨nofun, fun _ e => ?_, fun hne => absurd rfl hne⟩, ?_⟩
      · rcases eq_or_ne e d with rfl | hne
        · exact hself
        · exact (hother hne).trans (others_false hroll hquiet hne)
      · simp only [Face.reportable, decide_eq_true_eq]
        exact ⟨fun _ => nofun, fun _ => nofun⟩
    · have heq : F.report d false = G := by
        exact if_neg hdef
      rw [heq]
      refine ⟨⟨fun e he => ?_, fun hnone e => ?_, fun hne => h.flag hne⟩, ?_⟩
      · have hne : e ≠ d := by
          rintro rfl
          exact hdef he
        rw [hother hne]
        exact h.chosen e he
      · rcases eq_or_ne e d with rfl | hne
        · exact hself
        · rw [hother hne]
          exact h.missing hnone e
      · simp only [Face.reportable, decide_eq_true_eq]
        refine ⟨fun ht => hup (mem_cons_of_mem _ ht), fun _ hd' => absurd hd' hdef⟩

lemma report_device (F : Face) (d : ℕ) (r : Bool) (hd : F.device d ≠ none) : (F.report d r).device d ≠ none := by
  have hself : update F.device d ((F.device d).map fun x => (x.1, x.2.1, r)) d ≠ none := by
    simpa using hd
  unfold Face.report
  simp only
  split_ifs <;> exact hself

lemma reports (h : Routed F) (hroll : Roll F) (hd : F.device d ≠ none) (hok : F.reportable d rs = true) :
    Routed (rs.foldl (fun F r => F.report d r) F) := by
  induction rs generalizing F with
  | nil => exact h
  | cons r rs ih =>
    obtain ⟨hrouted, hrest⟩ := h.report hroll hd hok
    exact ih hrouted (hroll.report d r) (report_device F d r hd) hrest

lemma step {s : Sys Driver} {e : Event} (h : Routed s.world.face) (hroll : Roll s.world.face) (hok : routable s e = true)
    (hs : FaceStep s.world e G) : Routed G := by
  cases hs with
  | connected d => exact h.congr rfl rfl fun _ => rfl
  | enabled d a he =>
    have hgone : Routed (s.world.face.setGone d false) := h.congr rfl rfl fun _ => rfl
    exact hgone.enrolled he
  | disabled d hc =>
    simp only [routable, decide_eq_true_eq] at hok
    exact h.closed hroll hc hok.2
  | disconnected d hc =>
    simp only [routable, decide_eq_true_eq] at hok
    exact (h.closed hroll hc hok.2).congr rfl rfl fun _ => rfl
  | reports d data =>
    cases hd : s.world.data d with
    | none =>
      have hnil : reportsOf d data s.world = [] := by rw [reportsOf, hd]; rfl
      rw [hnil]
      exact h
    | some dev =>
      refine h.reports hroll ?_ hok
      rw [ne_eq, device_face, hd]
      exact some_ne_none _
  | same => exact h

end Routed

section Runs

variable {structSize : ℕ} {net : Net Driver} {s₀ s : Sys Driver} {events : List Event}

/-- **A connected netif yields a default route.**  From the start of the driver on, in every run whose events are routable,
there is a default netif whenever a registered device has last reported that it is connected, and it is one of those. -/
theorem default_route (structSize : ℕ) (net : Net Driver) (hnet : net.Aside (ethEnv structSize)) (s₀ s : Sys Driver)
    (hstart : s₀.world = {}) (events : List Event)
    (h : run (guarded routable (step (ethEnv structSize) net)) s₀ events = some s)
    (hcon : ∃ d ∈ s.world.netifList, ∃ dev, s.world.data d = some dev ∧ dev.connected = true) :
    ∃ d ∈ s.world.netifList, s.world.netifDefault = some d ∧ ∃ dev, s.world.data d = some dev ∧ dev.connected = true := by
  have hinv : Roll s.world.face ∧ Routed s.world.face := by
    refine run_inv (fun s => Roll s.world.face ∧ Routed s.world.face) ?_ ?_ h
    · rintro s e t ⟨hroll, hrouted⟩ hstep
      obtain ⟨hok, hstep⟩ := guarded_some.1 hstep
      have hface := step_face hnet hstep
      exact ⟨hroll.step hface, hrouted.step hroll hok hface⟩
    · rw [hstart]
      exact ⟨Roll.start, ⟨nofun, fun _ _ => rfl, fun h => absurd rfl h⟩⟩
  obtain ⟨hroll, hrouted⟩ := hinv
  obtain ⟨d, -, dev, hd, hdev⟩ := hcon
  have hconnected : s.world.face.connected d = true := by
    change ((s.world.data d).map face).any (fun x => x.2.2) = true
    rw [hd]
    exact hdev
  cases hdef : s.world.netifDefault with
  | none =>
    rw [hrouted.missing hdef d] at hconnected
    cases hconnected
  | some e =>
    have he : ((s.world.data e).map face).any (fun x => x.2.2) = true := hrouted.chosen e hdef
    cases hdata : s.world.data e with
    | none =>
      rw [hdata] at he
      cases he
    | some dev =>
      rw [hdata] at he
      refine ⟨e, (hroll.mem e).2 ?_, rfl, dev, hdata, he⟩
      change ((s.world.data e).map face).map Prod.fst ≠ none
      rw [hdata]
      exact nofun

end Runs

/-! ### A device -/

/-- A device for the Ethernet control model: the control interface, and the interface for the data. -/
def ecmConfig : Config where
  len := 66
  fetched := true
  bytes := Mem.ofBytes
    [9, 2, 66, 0, 2, 1, 0, 0x80, 50,
     9, 4, 0, 0, 1, 2, 6, 0, 0,
     13, 0x24, 0x0F, 3, 0, 0, 0, 0, 0xEA, 5, 0, 0, 0,
     5, 0x24, 6, 0, 1,
     7, 5, 0x81, 3, 16, 0, 8,
     9, 4, 1, 1, 2, 0x0A, 0, 0, 0,
     7, 5, 0x82, 2, 64, 0, 0,
     7, 5, 0x03, 2, 64, 0, 0]

def ecmAnswers : Answers where
  device := ⟨true, 0, [ecmConfig]⟩
  usb := ⟨fun _ => true, fun _ => true⟩

def idleNet : Net Driver := ⟨fun _ s => (none, s), fun _ s => s, fun _ s => (true, s)⟩

lemma idleNet_aside (structSize : ℕ) : idleNet.Aside (ethEnv structSize) := ⟨fun _ _ => .refl, fun _ _ => .refl, fun _ _ => .refl⟩

def boot (maxHeap : ℕ) (allocs : ℕ → Option Raw) : Sys Driver := memInit maxHeap true { allocs, world := {} }

def linkReport (up : Bool) : Bytes := [0xA1, 0, if up then 1 else 0, 0, 0, 0, 0, 0]

theorem default_route_plugged : ∃ s, run (guarded routable (step (ethEnv 48) idleNet)) (boot 32768 plenty)
      [.enabled 0 ecmAnswers, .interrupted 0 true (linkReport true)] = some s ∧ s.world.netifDefault = some 0 ∧
    ∃ d ∈ s.world.netifList, s.world.netifDefault = some d ∧ ∃ dev, s.world.data d = some dev ∧ dev.connected = true := by
  refine ⟨_, rfl, by decide +kernel, ?_⟩
  refine default_route 48 idleNet (idleNet_aside 48) (boot 32768 plenty) _ rfl
    [.enabled 0 ecmAnswers, .interrupted 0 true (linkReport true)] rfl ?_
  exact ⟨0, by decide +kernel, _, rfl, by decide +kernel⟩

/-- **The default is not found again.**  The device reports its link, is unplugged, and is plugged in again; then it reports its
link, and there is no default netif. -/
theorem replugged_not_default : ∃ s, run (step (ethEnv 48) idleNet) (boot 32768 plenty)
      [.enabled 0 ecmAnswers, .interrupted 0 true (linkReport true), .disconnected 0, .enabled 0 ecmAnswers,
        .interrupted 0 true (linkReport true)] = some s ∧
    0 ∈ s.world.netifList ∧ (∃ dev, s.world.data 0 = some dev ∧ dev.connected = true) ∧ s.world.netifDefault = none := by
  refine ⟨_, rfl, by decide +kernel, ⟨_, rfl, by decide +kernel⟩, by decide +kernel⟩

/-! ### Devices with their rings and transfers -/

def EthDevice.Equipped (dev : EthDevice) : Prop := dev.rxRing ≠ none ∧ 0 < dev.rxOutstanding ∧ 0 < dev.intOutstanding

def Synced (p : Pressure) : Prop := p.ethEffective = p.effective p.ethActive p.ethLevel

def Driver.AllEquipped (w : Driver) : Prop := ∀ d dev, w.data d = some dev → dev.Equipped ∧ w.gone d = false

/-- The invariant of the runs below: nothing has pressed the driver. -/
structure Equipped (s : Sys Driver) : Prop where
  roll : Roll s.world.face
  devices : s.world.AllEquipped
  nullDeref : s.world.nullDeref = false
  throttle : s.world.ethRxThrottleLevel = .none
  synced : Synced s.prs

/-- A receive ring can be created: the module is ready, the budget suffices, and so do the next two allocations. -/
def ringAvailable (E : Env Driver) (s : Sys Driver) : Bool :=
  s.cfg.ready ∧ (memBufferCharge (uadd E.structSize rxRingInitSize) s.cfg).isSome ∧ (s.allocs s.calls).isSome ∧
    (s.allocs (s.calls + 1)).isSome

def needsRing (d : ℕ) (a : Answers) (w : Driver) : Bool :=
  (ethernetType a w.ifnumsUsed).isSome &&
    match w.data d with
    | some dev => dev.rxRing.isNone
    | none => a.malloc && a.netifAdd

def registers : Event → Bool
  | .connected _ | .enabled .. | .disabled _ | .disconnected _ | .transmitted _ => true
  | .received _ ok _ | .interrupted _ ok _ => !ok
  | _ => false

/-- The condition on such an event: a ring that is needed can be created, a device that is disabled or disconnected has device
data, no error of another device is pending then, and no transfer fails at the limit. -/
def orderly (E : Env Driver) (s : Sys Driver) : Event → Bool
  | .enabled d a => a.hub || !needsRing d a s.world || ringAvailable E s
  | .disabled d => (s.world.data d).isSome
  | .disconnected d => (s.world.data d).isSome && !s.world.ethDisabledWithError
  | .received d _ _ => (s.world.data d).all fun dev => s.world.rxRetries dev.type ≠ ethUsbMaxRetries
  | .interrupted _ _ _ => s.world.intRetries ≠ ethUsbMaxRetries
  | _ => true

section Equip

variable {E : Env Driver} {d i : ℕ} {a : Answers} {s t : Sys Driver} {w : Driver} {dev : EthDevice} {structSize : ℕ} {e : Event}

lemma createRxRing_available (h : ringAvailable E s = true) : ∃ i t, createRxRing E s = (some i, t) := by
  simp only [ringAvailable, decide_eq_true_eq, isSome_iff_exists] at h
  obtain ⟨hready, ⟨cfg, hcfg⟩, ⟨r0, h0⟩, ⟨r1, h1⟩⟩ := h
  unfold createRxRing memBufferCreate
  rw [if_neg (by simp [hready, rxRingInitSize])]
  simp only [hcfg, malloc, h0, h1]
  rw [finishCreate_plain (by rw [Sys.onBuf_self]; rfl) (by rw [Sys.onBuf_self]; rfl)]
  exact ⟨_, _, rfl⟩

lemma registerHook_synced (structSize : ℕ) (h : Synced s.prs) :
    (ethRegisterPressureHook (ethEnv structSize) s).world = { s.world with hookRegistered := true } ∧
      Synced (ethRegisterPressureHook (ethEnv structSize) s).prs := by
  have hupdate : ∀ {u : Sys Driver}, Synced u.prs → (memPressureUpdateEffective (ethEnv structSize) u).world = u.world ∧
      Synced (memPressureUpdateEffective (ethEnv structSize) u).prs := by
    intro u hu
    have heth : updateEthEffective (ethEnv structSize) u = u := by
      exact if_neg (not_not.2 hu.symm)
    unfold memPressureUpdateEffective
    rw [heth]
    unfold updateTlsEffective
    simp only
    split_ifs
    · exact ⟨rfl, hu⟩
    · exact ⟨rfl, hu⟩
    · exact ⟨rfl, hu⟩
  unfold ethRegisterPressureHook
  split_ifs with hreg
  · refine ⟨?_, h⟩
    rw [← hreg]
  · obtain ⟨hw, hs⟩ := hupdate (u := { s with prs := { s.prs with ethHook := true } }) h
    refine ⟨?_, hs⟩
    change { (memPressureUpdateEffective (ethEnv structSize) { s with prs := { s.prs with ethHook := true } }).world with
      hookRegistered := true } = _
    rw [hw]

lemma Driver.AllEquipped.onDevice {f : EthDevice → EthDevice} (h : w.AllEquipped) (hf : ∀ dev, dev.Equipped → (f dev).Equipped)
    (d : ℕ) : (w.onDevice d f).AllEquipped := by
  intro e dev he
  rcases Driver.onDevice_some he with hold | ⟨rfl, dev0, h0, rfl⟩
  · exact h e dev hold
  · exact ⟨hf dev0 (h e dev0 h0).1, (h e dev0 h0).2⟩

lemma setGone_false (h : w.AllEquipped) (d : ℕ) : (present d w).AllEquipped := by
  intro e dev he
  refine ⟨(h e dev he).1, ?_⟩
  change update w.gone d false e = false
  rcases eq_or_ne e d with rfl | hne
  · exact update_self ..
  · rw [update_of_ne hne]
    exact (h e dev he).2

lemma nextRx_none (h : w.ethRxThrottleLevel = .none) : nextRx d w = w.onDevice d scheduleRx := by
  unfold nextRx ethShouldScheduleRx
  rw [h]
  rfl

lemma finishInit_some (structSize : ℕ) {dev : EthDevice} (hd : s.world.data d = some dev)
    (hring : dev.rxRing ≠ none ∨ ringAvailable (ethEnv structSize) s = true) (hsync : Synced s.prs) :
    ∃ i t, finishInit (ethEnv structSize) d s = (true, t) ∧ Synced t.prs ∧
      t.world = startDevice d { s.world.onDevice d (setRing i) with drainScheduled := true, hookRegistered := true } := by
  have hfin := finishInit_finishes (ethEnv structSize) hd
  generalize finishInit (ethEnv structSize) d s = x at hfin ⊢
  cases hfin with
  | ringless hr hnone =>
    obtain ⟨i, t, ht⟩ := createRxRing_available (hring.resolve_left (not_not.2 hr))
    rw [ht] at hnone
    cases hnone
  | @starts i u hworld hprs hbuf hcalls hpools hring =>
    obtain ⟨hw, hs⟩ := registerHook_synced structSize (hprs.symm ▸ hsync)
    refine ⟨i, _, rfl, hs, ?_⟩
    change startDevice d (ethRegisterPressureHook (ethEnv structSize) u).world = _
    rw [hw, hworld]

lemma startDevice_equipped {i : ℕ} (hd : w.data d = some dev) (hthr : w.ethRxThrottleLevel = .none)
    (hgone : w.gone d = false) (hothers : ∀ e dev, e ≠ d → w.data e = some dev → dev.Equipped ∧ w.gone e = false) :
    (startDevice d { w.onDevice d (setRing i) with drainScheduled := true, hookRegistered := true }).AllEquipped ∧
    (startDevice d { w.onDevice d (setRing i) with drainScheduled := true, hookRegistered := true }).ethRxThrottleLevel =
      .none := by
  set v : Driver := { w.onDevice d (setRing i) with drainScheduled := true, hookRegistered := true } with hv
  have hsched : startDevice d v =
      ((v.onDevice d setUp).onDevice d scheduleInt).onDevice d scheduleRx := nextRx_none hthr
  rw [hsched]
  refine ⟨?_, hthr⟩
  intro e dev' he
  rcases eq_or_ne e d with rfl | hne
  · have hvd : v.data e = some (setRing i dev) := by
      rw [Driver.onDevice_self, hd]
      rfl
    rw [Driver.onDevice_self, Driver.onDevice_self, Driver.onDevice_self, hvd] at he
    cases he
    exact ⟨⟨nofun, Nat.succ_pos _, Nat.succ_pos _⟩, hgone⟩
  · rw [Driver.onDevice_other hne, Driver.onDevice_other hne, Driver.onDevice_other hne] at he
    have hvd : v.data e = w.data e := Driver.onDevice_other hne _ w
    rw [hvd] at he
    exact hothers e dev' hne he

lemma init_equipped (h : s.world.AllEquipped) (hgone : s.world.gone d = false)
    (hthr : s.world.ethRxThrottleLevel = .none) (hsync : Synced s.prs)
    (hok : needsRing d a s.world = true → ringAvailable (ethEnv structSize) s = true) :
    initEthernetUsbDevice (ethEnv structSize) d a s = (false, s) ∨
    ∃ t, initEthernetUsbDevice (ethEnv structSize) d a s = (true, t) ∧ t.world.AllEquipped ∧
      t.world.ethRxThrottleLevel = .none ∧ Synced t.prs := by
  obtain hsame | ⟨type, w, dev, htype, hadd, hdev, hinit⟩ := init_cases (ethEnv structSize) d a s
  · exact .inl hsame
  refine .inr ?_
  rw [hinit]
  have hw : (dev.rxRing ≠ none ∨ ringAvailable (ethEnv structSize) s = true) ∧ w.ethRxThrottleLevel = .none ∧ w.gone d = false ∧
      ∀ e dev, e ≠ d → w.data e = some dev → dev.Equipped ∧ w.gone e = false := by
    obtain ⟨dev0, hd, rfl⟩ | ⟨hd, hmalloc, hnetif, rfl⟩ := addDevice_exits hadd
    · rw [Driver.onDevice_self, hd] at hdev
      cases hdev
      refine ⟨.inl (h d dev0 hd).1.1, hthr, hgone, fun e dev' hne he => ?_⟩
      rw [Driver.onDevice_other hne] at he
      exact h e dev' he
    · refine ⟨.inr (hok ?_), hthr, hgone, fun e dev' hne he => ?_⟩
      · unfold needsRing
        rw [htype, hd]
        simp [hmalloc, hnetif]
      · exact h e dev' ((update_of_ne hne ..).symm.trans he)
  obtain ⟨hring, hwthr, hwgone, hothers⟩ := hw
  obtain ⟨i, t, ht, hs, hworld⟩ := finishInit_some structSize (s := { s with world := w }) hdev hring hsync
  obtain ⟨hall, hthr'⟩ := startDevice_equipped hdev hwthr hwgone hothers
  exact ⟨t, ht, hworld ▸ hall, hworld ▸ hthr', hs⟩

lemma closeDevice_equipped (h : s.world.AllEquipped) (hd : (s.world.data d).isSome = true) :
    (closeDevice E d s).world.AllEquipped ∧ (closeDevice E d s).prs = s.prs ∧
      (closeDevice E d s).world.nullDeref = s.world.nullDeref ∧
      (closeDevice E d s).world.ethRxThrottleLevel = s.world.ethRxThrottleLevel ∧
      (s.world.ethDisabledWithError = false → (closeDevice E d s).world.data d = none) := by
  have hcloses := closeDevice_closes E d s
  generalize closeDevice E d s = t at hcloses ⊢
  cases hcloses with
  | absent hnone =>
    rw [hnone] at hd
    cases hd
  | kept hd herr =>
    refine ⟨h.onDevice (f := setDown) (fun _ hdev => hdev) d, rfl, rfl, rfl, fun hfalse => ?_⟩
    rw [herr] at hfalse
    cases hfalse
  | removed hd herr hprs hbuf hcalls hpools hworld =>
    rw [hworld]
    exact ⟨fun e dev he => h e dev (removed_data he).2, hprs, rfl, rfl, fun _ => update_self ..⟩

lemma rxError_equipped {type : Subclass} {data : Bytes} (h : w.AllEquipped) (hthr : w.ethRxThrottleLevel = .none)
    (hlimit : w.rxRetries type ≠ ethUsbMaxRetries) :
    (rxError d type (w.onDevice d (completeRx data))).AllEquipped := by
  have hsched : rxError d type (w.onDevice d (completeRx data)) =
      ({ w with rxRetries := update w.rxRetries type (w.rxRetries type + 1) }.onDevice d (completeRx data)).onDevice d
        scheduleRx := by
    exact (if_neg hlimit).trans (nextRx_none hthr)
  rw [hsched, Driver.onDevice_onDevice]
  exact Driver.AllEquipped.onDevice
    (f := scheduleRx ∘ completeRx data) h (fun _ hdev => ⟨hdev.1, Nat.succ_pos _, hdev.2.2⟩) d

lemma rxError_kept (d : ℕ) (type : Subclass) (w : Driver) :
    (rxError d type w).nullDeref = w.nullDeref ∧ (rxError d type w).ethRxThrottleLevel = w.ethRxThrottleLevel := by
  unfold rxError nextRx
  split_ifs
  · exact ⟨rfl, rfl⟩
  · exact ⟨rfl, rfl⟩
  · exact ⟨rfl, rfl⟩

lemma interruptError_eq (data : Bytes) (hlimit : w.intRetries ≠ ethUsbMaxRetries) : interruptReceiveCallback d false data w =
      { w with intRetries := w.intRetries + 1 }.onDevice d (scheduleInt ∘ completeInt data) := by
  rw [← Driver.onDevice_onDevice]
  exact if_neg hlimit

lemma Enrolled.nullDeref {F G : Face} (h : Enrolled d F G) : G.nullDeref = F.nullDeref := by
  cases h with
  | _ => rfl

lemma step_registers (he : registers e = true) (net : Net Driver) : step E net s e = step E idleNet s e := by
  cases e with
  | drained d => cases he
  | _ => rfl

lemma Equipped.step {net : Net Driver} (h : Equipped s) (he : registers e = true)
    (hok : orderly (ethEnv structSize) s e = true) (hstep : step (ethEnv structSize) net s e = some t) : Equipped t := by
  rw [step_registers he] at hstep
  have hroll : Roll t.world.face := h.roll.step (step_face (idleNet_aside structSize) hstep)
  cases e with
  | connected d =>
    cases hstep
    exact ⟨hroll, setGone_false h.devices d, h.nullDeref, h.throttle, h.synced⟩
  | enabled d a =>
    have hpresent := setGone_false h.devices d
    unfold Eth.step at hstep
    dsimp only at hstep
    split_ifs at hstep with hhub
    · cases hstep
      exact ⟨hroll, hpresent, h.nullDeref, h.throttle, h.synced⟩
    · have hring : needsRing d a s.world = true → ringAvailable (ethEnv structSize) s = true := by
        intro hneed
        simpa [orderly, hhub, hneed] using hok
      have hnull : (initEthernetUsbDevice (ethEnv structSize) d a (onWorld (present d) s)).2.world.nullDeref = false :=
        (Enrolled.nullDeref (init_face d a (onWorld (present d) s))).trans h.nullDeref
      rcases init_equipped (s := onWorld (present d) s) hpresent (update_self ..) h.throttle h.synced hring with
        hfail | ⟨u, hu, hall, hthr, hsync⟩
      · rw [hfail] at hstep
        cases hstep
        exact ⟨hroll, hpresent, h.nullDeref, h.throttle, h.synced⟩
      · rw [hu] at hstep hnull
        cases hstep
        exact ⟨hroll, hall, hnull, hthr, hsync⟩
  | disabled d =>
    cases hstep
    obtain ⟨hall, hprs, hnull, hthr, -⟩ := closeDevice_equipped h.devices hok
    exact ⟨hroll, hall, hnull.trans h.nullDeref, hthr.trans h.throttle, hprs.symm ▸ h.synced⟩
  | disconnected d =>
    cases hstep
    simp only [orderly, Bool.and_eq_true, Bool.not_eq_true'] at hok
    obtain ⟨hall, hprs, hnull, hthr, hnone⟩ := closeDevice_equipped h.devices hok.1
    refine ⟨hroll, ?_, hnull.trans h.nullDeref, hthr.trans h.throttle, hprs.symm ▸ h.synced⟩
    intro e dev he'
    change (closeDevice (ethEnv structSize) d s).world.data e = some dev at he'
    have hne : e ≠ d := by
      rintro rfl
      rw [hnone hok.2] at he'
      cases he'
    refine ⟨(hall e dev he').1, ?_⟩
    change update (closeDevice (ethEnv structSize) d s).world.gone d true e = false
    rw [update_of_ne hne]
    exact (hall e dev he').2
  | received d ok data =>
    obtain rfl : ok = false := Bool.not_eq_true' _ ▸ he
    obtain ⟨dev, hd, -, -, hcallback⟩ := step_received hstep
    have hlimit : s.world.rxRetries dev.type ≠ ethUsbMaxRetries := by simpa [orderly, hd] using hok
    obtain rfl := receiveCallback_error hd hcallback
    have hkept := rxError_kept d dev.type (s.world.onDevice d (completeRx data))
    exact ⟨hroll, rxError_equipped h.devices h.throttle hlimit, hkept.1.trans h.nullDeref, hkept.2.trans h.throttle, h.synced⟩
  | interrupted d ok data =>
    obtain rfl : ok = false := Bool.not_eq_true' _ ▸ he
    obtain ⟨dev, hd, -, -, rfl⟩ := step_interrupted hstep
    have hlimit : s.world.intRetries ≠ ethUsbMaxRetries := by simpa [orderly] using hok
    have hcallback := interruptError_eq (d := d) data hlimit
    refine ⟨hroll, ?_, ?_, ?_, h.synced⟩
    · change (interruptReceiveCallback d false data s.world).AllEquipped
      rw [hcallback]
      exact Driver.AllEquipped.onDevice
        (f := scheduleInt ∘ completeInt data) h.devices (fun _ hdev => ⟨hdev.1, hdev.2.1, Nat.succ_pos _⟩) d
    · change (interruptReceiveCallback d false data s.world).nullDeref = false
      rw [hcallback]
      exact h.nullDeref
    · change (interruptReceiveCallback d false data s.world).ethRxThrottleLevel = .none
      rw [hcallback]
      exact h.throttle
  | transmitted ok =>
    cases hstep
    have hworld : (bulkTransmitCallback ok s.world).AllEquipped ∧ (bulkTransmitCallback ok s.world).nullDeref = s.world.nullDeref ∧
        (bulkTransmitCallback ok s.world).ethRxThrottleLevel = s.world.ethRxThrottleLevel := by
      unfold bulkTransmitCallback
      split_ifs
      · exact ⟨h.devices, rfl, rfl⟩
      · exact ⟨h.devices, rfl, rfl⟩
      · exact ⟨h.devices, rfl, rfl⟩
    exact ⟨hroll, hworld.1, hworld.2.1.trans h.nullDeref, hworld.2.2.trans h.throttle, h.synced⟩
  | drained _ | elsewhere _ => cases he

end Equip

def Driver.Owns (w : Driver) (d n : ℕ) : Prop := ∃ dev, w.data d = some dev ∧ w.gone d = false ∧ dev.num = n

structure Registered (E : Env Driver) (s : Sys Driver) : Prop where
  used : ∀ n, s.world.ifnumsUsed.getLsbD n = true ↔ ∃! d, s.world.Owns d n
  distinct : ∀ d e n, s.world.Owns d n → s.world.Owns e n → d = e
  data : ∀ d, (s.world.data d).isSome = true ↔ d ∈ s.world.netifList
  equipped : ∀ d dev, s.world.data d = some dev → dev.Equipped
  nullDeref : s.world.nullDeref = false
  failed : ∀ d a, a.hub = false → orderly E s (.enabled d a) = true →
    (initEthernetUsbDevice E d a (onWorld (present d) s)).1 = false →
    (initEthernetUsbDevice E d a (onWorld (present d) s)).2 = onWorld (present d) s

lemma Equipped.owns (h : Equipped s) {d : ℕ} : s.world.Owns d n ↔ s.world.face.num d = some n := by
  have hnum : s.world.face.num d = (s.world.data d).map num := by
    change ((s.world.data d).map face).map (fun x => x.1) = _
    rw [Option.map_map]
    rfl
  rw [hnum, Option.map_eq_some_iff]
  constructor
  · rintro ⟨dev, hd, -, hn⟩
    exact ⟨dev, hd, hn⟩
  · rintro ⟨dev, hd, hn⟩
    exact ⟨dev, hd, (h.devices d dev hd).2, hn⟩

lemma Equipped.registered {structSize : ℕ} (h : Equipped s) : Registered (ethEnv structSize) s where
  used n := by
    refine (h.roll.used n).trans ⟨?_, ?_⟩
    · rintro ⟨d, hd⟩
      exact ⟨d, h.owns.2 hd, fun e he => h.roll.distinct e d n (h.owns.1 he) hd⟩
    · rintro ⟨d, hd, -⟩
      exact ⟨d, h.owns.1 hd⟩
  distinct d e n hd he := h.roll.distinct d e n (h.owns.1 hd) (h.owns.1 he)
  data d := by
    have hlist : d ∈ s.world.netifList ↔ s.world.face.num d ≠ none := h.roll.mem d
    rw [hlist, isSome_iff_ne_none, not_iff_not]
    change _ ↔ ((s.world.data d).map face).map (fun x => x.1) = none
    rw [map_eq_none_iff, map_eq_none_iff]
  equipped d dev hd := (h.devices d dev hd).1
  nullDeref := h.nullDeref
  failed d a hhub hok hfalse := by
    have hring : needsRing d a s.world = true → ringAvailable (ethEnv structSize) s = true := by
      intro hneed
      simpa [orderly, hhub, hneed] using hok
    rcases init_equipped (s := onWorld (present d) s) (setGone_false h.devices d) (update_self ..) h.throttle h.synced hring with
      hfail | ⟨t, ht, -⟩
    · rw [hfail]
    · rw [ht] at hfalse
      cases hfalse

/-- **The registration is kept in order.**  From the start of the driver on, in every run of events of the registration that
are all orderly, the bookkeeping is right. -/
theorem registration_kept (structSize : ℕ) (net : Net Driver) (s₀ s : Sys Driver) (hstart : s₀.world = {}) (hsync : Synced s₀.prs)
    (events : List Event)
    (h : run (guarded (fun s e => registers e && orderly (ethEnv structSize) s e) (step (ethEnv structSize) net)) s₀ events = some s) :
    Registered (ethEnv structSize) s := by
  have hinv : Equipped s := by
    refine run_inv Equipped ?_ ?_ h
    · intro s e t hs hstep
      obtain ⟨hok, hstep⟩ := guarded_some.1 hstep
      obtain ⟨he, hok⟩ := Bool.and_eq_true_iff.1 hok
      exact hs.step he hok hstep
    · refine ⟨hstart ▸ Roll.start, ?_, hstart ▸ rfl, hstart ▸ rfl, hsync⟩
      rw [hstart]
      nofun
  exact hinv.registered

theorem registration_kept_twice : ∃ s, run (guarded (fun s e => registers e && orderly (ethEnv 48) s e) (step (ethEnv 48) idleNet))
      (boot 32768 plenty) [.connected 0, .enabled 0 ecmAnswers, .enabled 1 ecmAnswers, .received 0 false [], .disabled 0,
        .enabled 0 ecmAnswers, .disconnected 1] = some s ∧ s.world.netifList = [0] ∧ Registered (ethEnv 48) s := by
  refine ⟨_, rfl, by decide +kernel, ?_⟩
  exact registration_kept 48 idleNet (boot 32768 plenty) _ rfl rfl [.connected 0, .enabled 0 ecmAnswers, .enabled 1 ecmAnswers,
    .received 0 false [], .disabled 0, .enabled 0 ecmAnswers, .disconnected 1] rfl

/-- **A device that was never registered.**  When it is disconnected, its device data are not there, and are dereferenced. -/
theorem absent_dereferenced : ∃ s, run (step (ethEnv 48) idleNet) (boot 32768 plenty) [.connected 0, .disconnected 0] = some s ∧
    s.world.nullDeref = true :=
  ⟨_, rfl, by decide +kernel⟩

end LwftpCe.Eth
