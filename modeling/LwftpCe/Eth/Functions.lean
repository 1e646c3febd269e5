import LwftpCe.Eth.Descriptors

/-!
# The Ethernet function among other functions

The parser takes any union descriptor for the one of the Ethernet function, and looks only for a data interface from then on.
-/

namespace LwftpCe.Eth

open Lib List

/-! ### Functions -/

def Config.isUnion (c : Config) (x : ℕ) : Bool :=
  c.bDescriptorType x = usbCsInterfaceDescriptor ∧ c.bytes (x + 2) = usbUnionFunctionalDescriptor

def Config.isEthControl (c : Config) (x : ℕ) : Bool :=
  c.bDescriptorType x = usbInterfaceDescriptor ∧ c.bytes (x + 5) = usbCommClass ∧
    (c.bytes (x + 6) = usbEcmSubclass ∨ c.bytes (x + 6) = usbNcmSubclass)

/-- A complete function, by the offsets of its descriptors: the control interface, its functional descriptors, the interrupt
endpoint, settings of the data interface without endpoints, and the one with its two endpoints. -/
structure EthFunction (c : Config) where
  control : ℕ
  functional : List ℕ
  interrupt : ℕ
  idle : List ℕ
  data : ℕ
  bulkIn : ℕ
  bulkOut : ℕ
  inFirst : Bool
  isControl : c.isEthControl control
  isFunctional : ∀ x ∈ functional, c.bDescriptorType x = usbCsInterfaceDescriptor
  ethernet : ∃ x ∈ functional, c.bytes (x + 2) = usbEthernetFunctionalDescriptor
  union : ∃ x ∈ functional, c.isUnion x
  number : ∀ x ∈ functional, c.isUnion x → c.bytes (x + 4) = c.bytes (data + 2)
  isInterrupt : c.bDescriptorType interrupt = usbEndpointDescriptor
  isIdle : ∀ x ∈ idle, c.bDescriptorType x = usbInterfaceDescriptor ∧ c.bytes (x + 4) = 0
  isData : c.bDescriptorType data = usbInterfaceDescriptor ∧ c.bytes (data + 4) = 2 ∧ c.bytes (data + 5) = usbCdcDataClass
  isIn : c.bDescriptorType bulkIn = usbEndpointDescriptor ∧ c.bytes (bulkIn + 2) &&& 0x80 ≠ 0
  isOut : c.bDescriptorType bulkOut = usbEndpointDescriptor ∧ c.bytes (bulkOut + 2) &&& 0x80 = 0

variable {u : UsbAnswers} {c : Config} {f : EthFunction c} {a b x n : ℕ} {xs ys : List ℕ} {p q : Parser} {l : List Access}

namespace EthFunction

def offsets (f : EthFunction c) : List ℕ :=
  f.control :: (f.functional ++ f.interrupt :: (f.idle ++ f.data :: if f.inFirst then [f.bulkIn, f.bulkOut] else [f.bulkOut, f.bulkIn]))

/-- What is to be found: the type of `f`, and its endpoints. -/
def Is (f : EthFunction c) (found : Setup) : Prop :=
  found.type = c.bytes (f.control + 6) ∧ found.endpointInt = c.bytes (f.interrupt + 2) ∧
    found.endpointIn = c.bytes (f.bulkIn + 2) ∧ found.endpointOut = c.bytes (f.bulkOut + 2)

end EthFunction

/-- The descriptors from `a` on have the offsets `xs`, and reach to the end of the configuration. -/
def Walk (c : Config) : ℕ → List ℕ → Prop
  | a, [] => a = c.len
  | a, x :: xs => x = a ∧ 2 ≤ c.bLength a ∧ Walk c (a + c.bLength a) xs

instance decidableWalk : ∀ a xs, Decidable (Walk c a xs)
  | a, [] => decEq a c.len
  | a, _ :: xs =>
    have := decidableWalk (a + c.bLength a) xs
    inferInstanceAs (Decidable (_ ∧ _ ∧ _))

lemma Walk.length_le (h : Walk c a xs) : a + xs.length ≤ c.len ∧ (xs ≠ [] → a < c.len) := by
  induction xs generalizing a with
  | nil => exact ⟨h.le, absurd rfl⟩
  | cons x xs ih =>
    obtain ⟨-, hlen, hrest⟩ := h
    have hle := (ih hrest).1
    rw [length_cons]
    omega

lemma Walk.turn (h : Walk c a (x :: xs)) (hgo : (lookAt u c x p).2 = .goOn q) :
    ∃ b l', parseLoop u c (n + 1) a p l = parseLoop u c n b q.next l' ∧ Walk c b xs := by
  obtain ⟨rfl, -, hrest⟩ := id h
  exact ⟨_, _, parseLoop_turn (h.length_le.2 (cons_ne_nil _ _)) hgo, hrest⟩

lemma Walk.success (h : Walk c a (x :: xs)) {found : Setup} (hs : (lookAt u c x p).2 = .success found) :
    (parseLoop u c (n + 1) a p l).1 = .success found := by
  obtain ⟨rfl, -⟩ := id h
  unfold parseLoop
  rw [if_neg (Nat.not_le.2 (h.length_le.2 (cons_ne_nil _ _)))]
  generalize lookAt u c x p = v at hs
  obtain ⟨reads, verdict⟩ := v
  subst hs
  rfl

/-- The rule for descriptors that are gone through one by one: `I` may speak of those that are left. -/
lemma Walk.through {I : List ℕ → Parser → Prop}
    (hstep : ∀ p x rest, I (x :: rest) p → ∃ q, (lookAt u c x p).2 = .goOn q ∧ I rest q.next) (h : Walk c a (xs ++ ys)) (hI : I xs p) :
    ∃ b q l', parseLoop u c (n + xs.length) a p l = parseLoop u c n b q l' ∧ Walk c b ys ∧ I [] q := by
  induction xs generalizing a p l with
  | nil => exact ⟨a, p, l, rfl, h, hI⟩
  | cons x xs ih =>
    obtain ⟨q, hgo, hq⟩ := hstep p x xs hI
    obtain ⟨b, l', hturn, hrest⟩ := h.turn hgo
    obtain ⟨b', r, l'', hrun, h'⟩ := ih hrest hq
    exact ⟨b', r, l'', hturn.trans hrun, h'⟩

/-! ### Single descriptors -/

lemma lookAt_endpoint (h : c.bDescriptorType x = usbEndpointDescriptor) : lookAt u c x p = endpointDescriptor c x p := if_pos h

lemma lookAt_interface (h : c.bDescriptorType x = usbInterfaceDescriptor) : lookAt u c x p = interfaceDescriptor u c x p := by
  rw [lookAt, if_neg (by rw [h]; decide), if_pos h]

lemma lookAt_functional (h : c.bDescriptorType x = usbCsInterfaceDescriptor) :
    ∃ q, (lookAt u c x p).2 = .goOn q ∧ q.hasBulkIfNum = (p.hasBulkIfNum || c.isUnion x) ∧
      q.ifnum = (if c.isUnion x then c.bytes (x + 4) else p.ifnum) ∧
      q.hasMacAddr = (p.hasMacAddr || c.bytes (x + 2) = usbEthernetFunctionalDescriptor && u.netAddress p.count) ∧
      q.hasControlIf = p.hasControlIf ∧ q.hasBulkIf = p.hasBulkIf ∧ q.hasEndpointInt = p.hasEndpointInt ∧
      q.hasEndpointIn = p.hasEndpointIn ∧ q.hasEndpointOut = p.hasEndpointOut ∧ q.found.type = p.found.type := by
  unfold lookAt csInterfaceDescriptor
  rw [if_neg (by rw [h]; decide), if_neg (by rw [h]; decide), if_pos h]
  simp only [Config.isUnion, h, true_and, decide_eq_true_eq]
  split_ifs with h1 h2
  · exact absurd (h1.symm.trans h2) (by decide)
  all_goals
    simp_all

/-- Without an Ethernet control interface, and behind a union descriptor whatever comes, nothing is found. -/
lemma lookAt_lost (hp : p.hasControlIf = false ∧ p.hasEndpointInt = false) (hx : p.hasBulkIfNum = true ∨ c.isEthControl x = false) :
    ∃ q, (lookAt u c x p).2 = .goOn q ∧ (q.hasControlIf = false ∧ q.hasEndpointInt = false) ∧
      q.hasBulkIfNum = (p.hasBulkIfNum || c.isUnion x) := by
  by_cases h1 : c.bDescriptorType x = usbEndpointDescriptor
  · rw [lookAt_endpoint h1, endpointDescriptor]
    by_cases hin : c.bytes (x + 2) &&& 0x80 ≠ 0 <;> cases p.hasBulkIf <;>
      simp [hp, hin, Config.isUnion, h1, usbEndpointDescriptor, usbCsInterfaceDescriptor]
  by_cases h2 : c.bDescriptorType x = usbInterfaceDescriptor
  · have hunion : c.isUnion x = false := by simp [Config.isUnion, h2, usbInterfaceDescriptor, usbCsInterfaceDescriptor]
    simp only [Config.isEthControl, h2, true_and, decide_eq_false_iff_not] at hx
    rw [lookAt_interface h2, interfaceDescriptor]
    split_ifs <;> simp_all [Parser.reset]
  by_cases h3 : c.bDescriptorType x = usbCsInterfaceDescriptor
  · obtain ⟨q, hgo, hnum, -, -, hcontrol, -, hint, -⟩ := lookAt_functional h3
    exact ⟨q, hgo, ⟨hcontrol.trans hp.1, hint.trans hp.2⟩, hnum⟩
  · unfold lookAt
    rw [if_neg h1, if_neg h2, if_neg h3]
    exact ⟨p, rfl, hp, by simp [Config.isUnion, h3]⟩

/-! ### The function -/

/-- The parser between the control interface of `f` and its data interface, with the functional descriptors `rest` to come. -/
structure Control (f : EthFunction c) (rest : List ℕ) (p : Parser) : Prop where
  sub : rest ⊆ f.functional
  control : p.hasControlIf = true
  bulk : p.hasBulkIf = false ∧ p.hasEndpointIn = false ∧ p.hasEndpointOut = false
  type : p.found.type = c.bytes (f.control + 6)
  mac : p.hasMacAddr || rest.any fun x => c.bytes (x + 2) = usbEthernetFunctionalDescriptor
  union : p.hasBulkIfNum || rest.any c.isUnion
  number : p.hasBulkIfNum = true → p.ifnum = c.bytes (f.data + 2)

lemma Control.step (hnet : ∀ n, u.netAddress n = true) (hp : Control f (x :: xs) p) :
    ∃ q, (lookAt u c x p).2 = .goOn q ∧ Control f xs q.next := by
  have hx := hp.sub mem_cons_self
  obtain ⟨q, hgo, hnum, hif, hmac, hcontrol, hbulk, -, hin, hout, htype⟩ := lookAt_functional (f.isFunctional x hx)
  refine ⟨q, hgo, fun y hy => hp.sub (mem_cons_of_mem x hy), hcontrol.trans hp.control, ?_, htype.trans hp.type, ?_, ?_, ?_⟩
  · exact ⟨hbulk.trans hp.bulk.1, hin.trans hp.bulk.2.1, hout.trans hp.bulk.2.2⟩
  · change q.hasMacAddr || _
    rw [hmac, hnet, Bool.and_true, Bool.or_assoc]
    exact hp.mac
  · change q.hasBulkIfNum || _
    rw [hnum, Bool.or_assoc]
    exact hp.union
  · intro hset
    change q.ifnum = _
    rw [hif]
    split_ifs with hunion
    · exact f.number x hx hunion
    · exact hp.number (by simpa [hunion] using hnum.symm.trans hset)

lemma Control.start (f : EthFunction c) (hset : ∀ n, u.setConfiguration n = true) (hnum : p.hasBulkIfNum = false) :
    ∃ q, (lookAt u c f.control p).2 = .goOn q ∧ Control f f.functional q.next := by
  have hcontrol := f.isControl
  simp only [Config.isEthControl, decide_eq_true_eq] at hcontrol
  rw [lookAt_interface hcontrol.1, interfaceDescriptor, if_neg (by simp [hnum]), if_neg (not_not.2 hcontrol.2.1)]
  rw [if_pos hcontrol.2.2, if_pos (hset _)]
  exact ⟨_, rfl, Subset.refl _, rfl, ⟨rfl, rfl, rfl⟩, rfl, by simp [f.ethernet], by simp [f.union], fun h => by cases h⟩

/-- The parser behind the interrupt endpoint of `f`. -/
structure Primed (f : EthFunction c) (p : Parser) : Prop where
  number : p.hasBulkIfNum = true ∧ p.ifnum = c.bytes (f.data + 2)
  bulk : p.hasEndpointIn = false ∧ p.hasEndpointOut = false
  kept : p.hasEndpointInt = true ∧ p.hasMacAddr = true
  found : p.found.type = c.bytes (f.control + 6) ∧ p.found.endpointInt = c.bytes (f.interrupt + 2)

lemma Control.interrupt (hp : Control f [] p) : ∃ q, (lookAt u c f.interrupt p).2 = .goOn q ∧ Primed f q.next := by
  have hnumber : p.hasBulkIfNum = true := by simpa using hp.union
  have hmac : p.hasMacAddr = true := by simpa using hp.mac
  rw [lookAt_endpoint f.isInterrupt, endpointDescriptor, if_neg (by simp [hp.bulk]), if_pos hp.control]
  exact ⟨_, rfl, ⟨hnumber, hp.number hnumber⟩, hp.bulk.2, ⟨rfl, hmac⟩, hp.type, rfl⟩

lemma Primed.idle (hp : Primed f p) (hx : x ∈ f.idle) : ∃ q, (lookAt u c x p).2 = .goOn q ∧ Primed f q.next := by
  have hidle := f.isIdle x hx
  have hnext : Primed f p.next := ⟨hp.number, hp.bulk, hp.kept, hp.found⟩
  rw [lookAt_interface hidle.1, interfaceDescriptor, if_pos hp.number.1, if_pos (by simp [hidle.2] : c.bytes (x + 4) ≠ 2)]
  split_ifs <;> exact ⟨p, rfl, hnext⟩

lemma Primed.data (hp : Primed f p) : ∃ q, (lookAt u c f.data p).2 = .goOn q ∧ Primed f q.next ∧ q.next.hasBulkIf = true := by
  rw [lookAt_interface f.isData.1, interfaceDescriptor, if_pos hp.number.1, if_neg (not_not.2 hp.number.2.symm),
    if_neg (not_not.2 f.isData.2.1), if_pos f.isData.2.2]
  exact ⟨_, rfl, ⟨hp.number, hp.bulk, hp.kept, hp.found⟩, rfl⟩

lemma Primed.bulks (hp : Primed f p) (hbulk : p.hasBulkIf = true)
    (h : Walk c a ((if f.inFirst then [f.bulkIn, f.bulkOut] else [f.bulkOut, f.bulkIn]) ++ xs)) :
    ∃ found, (parseLoop u c (n + 2) a p l).1 = .success found ∧ f.Is found := by
  have hin := fun p => lookAt_endpoint (u := u) (p := p) f.isIn.1
  have hout := fun p => lookAt_endpoint (u := u) (p := p) f.isOut.1
  unfold endpointDescriptor at hin hout
  split_ifs at h
  · obtain ⟨b, l', hturn, h'⟩ := h.turn (u := u) (p := p) (by simp [hin, f.isIn.2, hbulk, hp.bulk]; rfl)
    rw [hturn, h'.success (by simp [hout, f.isOut.2, hp.kept, Parser.next]; rfl)]
    exact ⟨_, rfl, hp.found.1, hp.found.2, rfl, rfl⟩
  · obtain ⟨b, l', hturn, h'⟩ := h.turn (u := u) (p := p) (by simp [hout, f.isOut.2, hbulk, hp.bulk]; rfl)
    rw [hturn, h'.success (by simp [hin, f.isIn.2, hp.kept, Parser.next]; rfl)]
    exact ⟨_, rfl, hp.found.1, hp.found.2, rfl, rfl⟩

lemma Walk.found (hset : ∀ n, u.setConfiguration n = true) (hnet : ∀ n, u.netAddress n = true) (hnum : p.hasBulkIfNum = false)
    (h : Walk c a (f.offsets ++ xs)) :
    ∃ found, (parseLoop u c (n + f.offsets.length) a p l).1 = .success found ∧ f.Is found := by
  have hlen : n + f.offsets.length = n + 2 + 1 + f.idle.length + 1 + f.functional.length + 1 := by
    unfold EthFunction.offsets
    cases f.inFirst <;> simp <;> omega
  unfold EthFunction.offsets at h
  simp only [cons_append, append_assoc] at h
  obtain ⟨q1, hgo1, hq1⟩ := Control.start f hset hnum
  obtain ⟨b1, l1, hrun1, h1⟩ := h.turn hgo1
  obtain ⟨b2, q2, l2, hrun2, h2, hq2⟩ := h1.through (fun _ _ _ hp => hp.step hnet) hq1
  obtain ⟨q3, hgo3, hq3⟩ := hq2.interrupt
  obtain ⟨b3, l3, hrun3, h3⟩ := h2.turn hgo3
  obtain ⟨b4, q4, l4, hrun4, h4, hq4, -⟩ := h3.through (u := u) (I := fun rest p => Primed f p ∧ rest ⊆ f.idle)
    (fun p x _ hp => by
      obtain ⟨q, hgo, hq⟩ := hp.1.idle (hp.2 mem_cons_self)
      exact ⟨q, hgo, hq, fun _ hy => hp.2 (mem_cons_of_mem x hy)⟩) ⟨hq3, Subset.refl _⟩
  obtain ⟨q5, hgo5, hq5, hbulk⟩ := hq4.data
  obtain ⟨b5, l5, hrun5, h5⟩ := h4.turn hgo5
  rw [hlen, hrun1, hrun2, hrun3, hrun4, hrun5]
  exact hq5.bulks hbulk h5

lemma Walk.lost (hp : (p.hasControlIf = false ∧ p.hasEndpointInt = false) ∧ p.hasBulkIfNum = true) (h : Walk c a xs) :
    ∃ q, (parseLoop u c (n + xs.length) a p l).1 = .finished q := by
  rw [← append_nil xs] at h
  obtain ⟨b, q, l', hrun, hend, -⟩ := h.through
    (I := fun _ p => (p.hasControlIf = false ∧ p.hasEndpointInt = false) ∧ p.hasBulkIfNum = true) (fun p x _ hp => by
      obtain ⟨q, hgo, hq, hnum⟩ := lookAt_lost (u := u) hp.1 (.inl hp.2)
      exact ⟨q, hgo, hq, hnum.trans (by rw [hp.2, Bool.true_or])⟩) hp
  refine ⟨q, ?_⟩
  rw [hrun]
  cases n <;> rw [parseLoop, if_pos (Eq.ge hend)]

/-- **The Ethernet function is found** behind other functions exactly when none of them has a union descriptor. -/
theorem ethernet_found_iff (usb : UsbAnswers) (hset : ∀ n, usb.setConfiguration n = true) (hnet : ∀ n, usb.netAddress n = true)
    (ifnumsUsed : BitVec 8) (dev : Device) (c : Config) (hdev : dev.fetched = true ∧ dev.configs = [c])
    (hc : c.fetched = true ∧ c.len ≤ descriptorMaxLen) (before : List ℕ) (f : EthFunction c) (behind : List ℕ)
    (hwalk : Walk c 0 (before ++ (f.offsets ++ behind))) (hother : ∀ x ∈ before, c.isEthControl x = false) :
    (∃ found, (findEthernet usb ifnumsUsed dev).1 = some found ∧ f.Is found) ↔
      ifnumsUsed ≠ 0xFF ∧ dev.bDeviceClass = usbInterfaceSpecificClass ∧ ∀ x ∈ before, c.isUnion x = false := by
  have hsum := hwalk.length_le.1
  rw [Nat.zero_add, length_append] at hsum
  unfold findEthernet
  by_cases hused : ifnumsUsed = 0xFF
  · rw [if_pos hused]
    exact iff_of_false (by simp) fun h => h.1 hused
  by_cases hclass : dev.bDeviceClass ≠ usbInterfaceSpecificClass
  · rw [if_pos hclass]
    exact iff_of_false (by simp) fun h => hclass h.2.1
  rw [if_neg hused, if_neg (by simp [hdev.1]), if_neg hclass, hdev.2, parseConfigs, if_neg (by simp [hc.1, Nat.not_lt.2 hc.2])]
  -- what comes before leaves nothing but the flag of a union descriptor
  obtain ⟨n, hn⟩ := Nat.exists_eq_add_of_le' hsum
  rw [Nat.add_comm before.length, ← Nat.add_assoc] at hn
  obtain ⟨b, q, l, hrun, h, hq, -, hnum⟩ := hwalk.through (p := {})
    (I := fun rest p => (p.hasControlIf = false ∧ p.hasEndpointInt = false) ∧ rest ⊆ before ∧
      (p.hasBulkIfNum || rest.any c.isUnion) = before.any c.isUnion)
    (fun p x _ hp => by
      obtain ⟨q, hgo, hq, hnum⟩ := lookAt_lost (u := usb) hp.1 (.inr (hother x (hp.2.1 mem_cons_self)))
      refine ⟨q, hgo, hq, fun y hy => hp.2.1 (mem_cons_of_mem x hy), ?_⟩
      change (q.hasBulkIfNum || _) = _
      rw [hnum, Bool.or_assoc]
      exact hp.2.2) ⟨⟨rfl, rfl⟩, Subset.refl _, rfl⟩
  dsimp only [visit]
  rw [hn, hrun]
  by_cases hunion : ∀ x ∈ before, c.isUnion x = false
  · refine iff_of_true ?_ ⟨hused, not_not.1 hclass, hunion⟩
    have hany : before.any c.isUnion = false := by simpa using hunion
    obtain ⟨found, hfound, his⟩ := h.found hset hnet (by simpa [hany] using hnum)
    rw [length_append, Nat.add_comm f.offsets.length, ← Nat.add_assoc, hfound]
    exact ⟨found, rfl, his⟩
  · refine iff_of_false ?_ fun h => hunion h.2.2
    have hany : before.any c.isUnion = true := by simpa using hunion
    obtain ⟨r, hr⟩ := h.lost ⟨hq, by simpa [hany] using hnum⟩
    rw [hr]
    simp [parseConfigs]

/-! ### A device with one function -/

def ecmDevice : Config where
  len := 66
  fetched := true
  bytes := Mem.ofBytes
    [9, 2, 66, 0, 2, 1, 0, 0x80, 50, 9, 4, 0, 0, 1, 2, 6, 0, 0, 5, 0x24, 6, 0, 1, 13, 0x24, 0x0F, 3, 0, 0, 0, 0, 0xEA, 5, 0, 0, 0,
      7, 5, 0x81, 3, 16, 0, 8, 9, 4, 1, 1, 2, 0x0A, 0, 0, 0, 7, 5, 0x82, 2, 64, 0, 0, 7, 5, 3, 2, 64, 0, 0]

def ecmFunction : EthFunction ecmDevice where
  control := 9
  functional := [18, 23]
  interrupt := 36
  idle := []
  data := 43
  bulkIn := 52
  bulkOut := 59
  inFirst := true
  isControl := by decide
  isFunctional := by decide
  ethernet := by decide
  union := by decide
  number := by decide
  isInterrupt := by decide
  isIdle := by decide
  isData := by decide
  isIn := by decide
  isOut := by decide

theorem ethernet_found_ecm : ∃ found, (findEthernet ⟨fun _ => true, fun _ => true⟩ 0 ⟨true, 0, [ecmDevice]⟩).1 = some found ∧
    ecmFunction.Is found :=
  (ethernet_found_iff _ (fun _ => rfl) (fun _ => rfl) 0 _ _ ⟨rfl, rfl⟩ (by decide) [0] _ [] (by decide) (by decide)).2 (by decide)

end LwftpCe.Eth
