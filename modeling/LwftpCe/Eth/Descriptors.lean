import LwftpCe.Eth.Ntb

/-!
# The descriptors of a device

The first part of `init_ethernet_usb_device` in `drivers/usb_ethernet.c`: the loop over the configurations of a device and,
for each, the loop over its descriptors, until an interface for Ethernet with its endpoints has been found.  What is read of a
descriptor depends on its type and on what has been found so far; the offsets are noted, the latest first.
-/

namespace LwftpCe.Eth

open Lib List

/-! ### The descriptors -/

def usbInterfaceDescriptor : UInt8 := 0x04
def usbEndpointDescriptor : UInt8 := 0x05
def usbCsInterfaceDescriptor : UInt8 := 0x24

def usbUnionFunctionalDescriptor : UInt8 := 0x06
def usbEthernetFunctionalDescriptor : UInt8 := 0x0F
def usbNcmFunctionalDescriptor : UInt8 := 0x1A

def usbInterfaceSpecificClass : UInt8 := 0x00
def usbCommClass : UInt8 := 0x02
def usbCdcDataClass : UInt8 := 0x0A

def usbEcmSubclass : UInt8 := 0x06
def usbNcmSubclass : UInt8 := 0x0D

def descriptorMaxLen : ℕ := 256

/-- A configuration as the device presents it: the length it tells (`desc_len`), whether the transfer of that many bytes
succeeds, and the buffer then. -/
structure Config where
  len : ℕ
  fetched : Bool
  bytes : Mem

/-- What is used of the device descriptor, and the configurations. -/
structure Device where
  fetched : Bool
  bDeviceClass : UInt8
  configs : List Config

/-- What the calls at the `n`-th descriptor come to: `set_configuration`, and the three ways to an address for the device. -/
structure UsbAnswers where
  setConfiguration : ℕ → Bool
  netAddress : ℕ → Bool

def Config.bLength (c : Config) (pos : ℕ) : ℕ := (c.bytes pos).toNat
def Config.bDescriptorType (c : Config) (pos : ℕ) : UInt8 := c.bytes (pos + 1)

/-! ### The parser -/

/-- What is kept of the descriptors: `tmp.type`, `bm_capabilities`, `endpoint_addr` and the place of `if_bulk`. -/
structure Setup where
  type : UInt8 := 0
  bmCapabilities : UInt8 := 0
  endpointIn : UInt8 := 0
  endpointOut : UInt8 := 0
  endpointInt : UInt8 := 0
  ifBulk : ℕ × ℕ := (0, 0)

/-- The bits of `parse_state`, `ifnum`, and what has been kept; `count` is the number of descriptors so far. -/
structure Parser where
  hasControlIf : Bool := false
  hasMacAddr : Bool := false
  hasBulkIfNum : Bool := false
  hasBulkIf : Bool := false
  hasEndpointInt : Bool := false
  hasEndpointIn : Bool := false
  hasEndpointOut : Bool := false
  ifnum : UInt8 := 0
  found : Setup := {}
  count : ℕ := 0

def Parser.reset (p : Parser) : Parser := { ifnum := p.ifnum, found := p.found, count := p.count }

def Parser.next (p : Parser) : Parser := { p with count := p.count + 1 }

/-- After a descriptor: to the next one, to `init_success`, or out of the function. -/
inductive Verdict where
  | goOn (p : Parser)
  | success (found : Setup)
  | failed

section Parse

variable (usb : UsbAnswers) (c : Config) (pos : ℕ) (p : Parser)

def endpointDescriptor : List Access × Verdict :=
  let bEndpointAddress := c.bytes (pos + 2)
  if p.hasBulkIf then
    let p :=
      if bEndpointAddress &&& 0x80 ≠ 0 then
        { p with hasEndpointIn := true, found := { p.found with endpointIn := bEndpointAddress } }
      else { p with hasEndpointOut := true, found := { p.found with endpointOut := bEndpointAddress } }
    ([(pos + 2, 1)],
      if p.hasEndpointIn && p.hasEndpointOut && p.hasEndpointInt && p.hasMacAddr then .success p.found else .goOn p)
  else if p.hasControlIf then
    ([(pos + 2, 1)], .goOn { p with hasEndpointInt := true, found := { p.found with endpointInt := bEndpointAddress } })
  else ([], .goOn p)

def interfaceDescriptor : List Access × Verdict :=
  let bInterfaceSubClass := c.bytes (pos + 6)
  if p.hasBulkIfNum then
    if c.bytes (pos + 2) ≠ p.ifnum then ([(pos + 2, 1)], .goOn p)
    else if c.bytes (pos + 4) ≠ 2 then ([(pos + 4, 1), (pos + 2, 1)], .goOn p)
    else
      ([(pos + 5, 1), (pos + 4, 1), (pos + 2, 1)],
        if c.bytes (pos + 5) = usbCdcDataClass then
          .goOn { p with hasBulkIf := true, found := { p.found with ifBulk := (pos, c.len - pos) } }
        else .goOn p)
  else
    let p := p.reset
    if c.bytes (pos + 5) ≠ usbCommClass then ([(pos + 5, 1)], .goOn p)
    else
      ([(pos + 6, 1), (pos + 5, 1)],
        if bInterfaceSubClass = usbEcmSubclass ∨ bInterfaceSubClass = usbNcmSubclass then
          if usb.setConfiguration p.count then
            .goOn { p with hasControlIf := true, found := { p.found with type := bInterfaceSubClass } }
          else .failed
        else .goOn p)

def csInterfaceDescriptor : List Access × Verdict :=
  let bDescriptorSubType := c.bytes (pos + 2)
  if bDescriptorSubType = usbEthernetFunctionalDescriptor then
    ([(pos + 3, 1), (pos + 2, 1)], .goOn { p with hasMacAddr := p.hasMacAddr || usb.netAddress p.count })
  else if bDescriptorSubType = usbUnionFunctionalDescriptor then
    ([(pos + 4, 1), (pos + 2, 1)], .goOn { p with ifnum := c.bytes (pos + 4), hasBulkIfNum := true })
  else if bDescriptorSubType = usbNcmFunctionalDescriptor then
    ([(pos + 5, 1), (pos + 2, 1)], .goOn { p with found := { p.found with bmCapabilities := c.bytes (pos + 5) } })
  else ([(pos + 2, 1)], .goOn p)

def lookAt : List Access × Verdict :=
  if c.bDescriptorType pos = usbEndpointDescriptor then endpointDescriptor c pos p
  else if c.bDescriptorType pos = usbInterfaceDescriptor then interfaceDescriptor usb c pos p
  else if c.bDescriptorType pos = usbCsInterfaceDescriptor then csInterfaceDescriptor usb c pos p
  else ([], .goOn p)

end Parse

/-- What has come of a configuration: the loop has not been left, it has been left at its end, or by a jump. -/
inductive Outcome where
  | running
  | finished (p : Parser)
  | success (found : Setup)
  | failed

def parseLoop (usb : UsbAnswers) (c : Config) : ℕ → ℕ → Parser → List Access → Outcome × List Access
  | 0, pos, p, log => if c.len ≤ pos then (.finished p, log) else (.running, log)
  | fuel + 1, pos, p, log =>
    if c.len ≤ pos then (.finished p, log)
    else
      match lookAt usb c pos p with
      | (reads, .success found) => (.success found, reads ++ (pos + 1, 1) :: log)
      | (reads, .failed) => (.failed, reads ++ (pos + 1, 1) :: log)
      | (reads, .goOn q) =>
        parseLoop usb c fuel (pos + c.bLength pos) q.next ((pos, 1) :: reads ++ (pos + 1, 1) :: log)

/-- A configuration whose descriptors have been gone through, for `desc_len` turns. -/
structure Visit where
  config : Config
  outcome : Outcome
  log : List Access

def visit (usb : UsbAnswers) (c : Config) (p : Parser) : Visit :=
  let (outcome, log) := parseLoop usb c c.len 0 { found := p.found, count := p.count } []
  ⟨c, outcome, log⟩

def parseConfigs (usb : UsbAnswers) : List Config → Parser → Option Setup × List Visit
  | [], _ => (none, [])
  | c :: cs, p =>
    if c.len > descriptorMaxLen ∨ c.fetched = false then parseConfigs usb cs p
    else
      let v := visit usb c p
      match v.outcome with
      | .finished q => ((parseConfigs usb cs q).1, v :: (parseConfigs usb cs q).2)
      | .success found => (some found, [v])
      | .failed | .running => (none, [v])

def findEthernet (usb : UsbAnswers) (ifnumsUsed : BitVec 8) (dev : Device) : Option Setup × List Visit :=
  if ifnumsUsed = 0xFF then (none, [])
  else if dev.fetched = false then (none, [])
  else if dev.bDeviceClass ≠ usbInterfaceSpecificClass then (none, [])
  else parseConfigs usb dev.configs {}

/-! ### What the loops read -/

/-- What decides how far a descriptor is looked at: a control interface, the number of the interface for the data, and that
interface. -/
structure Seen where
  control : Bool := false
  union : Option UInt8 := none
  bulk : Bool := false

def Parser.seen (p : Parser) : Seen := ⟨p.hasControlIf, if p.hasBulkIfNum then some p.ifnum else none, p.hasBulkIf⟩

lemma Parser.next_seen (p : Parser) : p.next.seen = p.seen := rfl

def endpointExtent (seen : Seen) : ℕ := if seen.bulk || seen.control then 3 else 2

def interfaceExtent (c : Config) (pos : ℕ) (seen : Seen) : ℕ :=
  match seen.union with
  | some ifnum => if c.bytes (pos + 2) ≠ ifnum then 3 else if c.bytes (pos + 4) ≠ 2 then 5 else 6
  | none => if c.bytes (pos + 5) ≠ usbCommClass then 6 else 7

def csInterfaceExtent (c : Config) (pos : ℕ) : ℕ :=
  if c.bytes (pos + 2) = usbEthernetFunctionalDescriptor then 4
  else if c.bytes (pos + 2) = usbUnionFunctionalDescriptor then 5
  else if c.bytes (pos + 2) = usbNcmFunctionalDescriptor then 6
  else 3

def Config.extent (c : Config) (pos : ℕ) (seen : Seen) : ℕ :=
  if c.bDescriptorType pos = usbEndpointDescriptor then endpointExtent seen
  else if c.bDescriptorType pos = usbInterfaceDescriptor then interfaceExtent c pos seen
  else if c.bDescriptorType pos = usbCsInterfaceDescriptor then csInterfaceExtent c pos
  else 2

def Config.after (c : Config) (pos : ℕ) (seen : Seen) : Seen :=
  if c.bDescriptorType pos = usbInterfaceDescriptor then
    match seen.union with
    | some ifnum =>
      let bulk := decide (c.bytes (pos + 2) = ifnum ∧ c.bytes (pos + 4) = 2 ∧ c.bytes (pos + 5) = usbCdcDataClass)
      { seen with bulk := seen.bulk || bulk }
    | none =>
      let subclass := c.bytes (pos + 6)
      { control := decide (c.bytes (pos + 5) = usbCommClass ∧ (subclass = usbEcmSubclass ∨ subclass = usbNcmSubclass)) }
  else if c.bDescriptorType pos = usbCsInterfaceDescriptor ∧ c.bytes (pos + 2) = usbUnionFunctionalDescriptor then
    { seen with union := some (c.bytes (pos + 4)) }
  else seen

/-- The chain of the descriptors: the offset of each, and what is known there. -/
inductive Chain (c : Config) : ℕ → ℕ → Seen → Prop
  | first : Chain c 0 0 {}
  | next {n pos : ℕ} {seen : Seen} (h : Chain c n pos seen) (hpos : pos < c.len) :
      Chain c (n + 1) (pos + c.bLength pos) (c.after pos seen)

def Readable (c : Config) : Prop :=
  ∀ n pos seen, Chain c n pos seen → pos < c.len → c.bLength pos ≠ 0 ∧ pos + c.extent pos seen ≤ c.len

/-- What is asked of the parser: no loop takes more turns than its configuration has bytes, and only those bytes are read. -/
def Visit.Confined (v : Visit) : Prop := v.outcome ≠ .running ∧ Within v.config.len v.log

variable {usb : UsbAnswers} {c : Config} {pos n fuel T : ℕ} {p q : Parser} {seen : Seen} {log : List Access}

lemma within_endpoint : Within T (endpointDescriptor c pos p).1 ∧ pos + 2 ≤ T ↔ pos + endpointExtent p.seen ≤ T := by
  unfold endpointDescriptor endpointExtent
  cases hb : p.hasBulkIf
  · cases hc : p.hasControlIf
    · simp [Within, Parser.seen, hb, hc]
    · simp [Within, Parser.seen, hb, hc]
      omega
  · simp [Within, Parser.seen, hb]
    omega

lemma within_interface : Within T (interfaceDescriptor usb c pos p).1 ∧ pos + 2 ≤ T ↔ pos + interfaceExtent c pos p.seen ≤ T := by
  unfold interfaceDescriptor interfaceExtent
  cases hn : p.hasBulkIfNum
  · simp only [Parser.seen, hn, Bool.false_eq_true, if_false]
    split_ifs <;> simp [Within] <;> omega
  · simp only [Parser.seen, hn, if_true]
    split_ifs <;> simp [Within] <;> omega

lemma within_csInterface : Within T (csInterfaceDescriptor usb c pos p).1 ∧ pos + 2 ≤ T ↔ pos + csInterfaceExtent c pos ≤ T := by
  unfold csInterfaceDescriptor csInterfaceExtent
  dsimp only
  split_ifs <;> simp [Within] <;> omega

lemma within_lookAt : Within T ((lookAt usb c pos p).1 ++ (pos + 1, 1) :: log) ↔ pos + c.extent pos p.seen ≤ T ∧ Within T log := by
  have hkind : Within T (lookAt usb c pos p).1 ∧ pos + 2 ≤ T ↔ pos + c.extent pos p.seen ≤ T := by
    unfold lookAt Config.extent
    split_ifs
    · exact within_endpoint
    · exact within_interface
    · exact within_csInterface
    · simp [Within]
  rw [within_append, within_cons, ← hkind, and_assoc]
  refine and_congr_right fun _ => and_congr_left fun _ => ?_
  exact ⟨fun h => h Nat.one_pos, fun h _ => h⟩

lemma lookAt_seen (h : (lookAt usb c pos p).2 = .goOn q) : q.seen = c.after pos p.seen := by
  unfold lookAt at h
  unfold Config.after
  split_ifs at h with h1 h2 h3
  · have hi : ¬ c.bDescriptorType pos = usbInterfaceDescriptor := by
      rw [h1]
      decide
    have hcs : ¬ (c.bDescriptorType pos = usbCsInterfaceDescriptor ∧ c.bytes (pos + 2) = usbUnionFunctionalDescriptor) := by
      rw [h1]
      exact fun h => absurd h.1 (by decide)
    rw [if_neg hi, if_neg hcs]
    unfold endpointDescriptor at h
    dsimp only at h
    split_ifs at h <;> cases h <;> rfl
  · unfold interfaceDescriptor at h
    cases hn : p.hasBulkIfNum
    · simp only [hn, Bool.false_eq_true, if_false] at h
      simp only [Parser.seen, hn, Bool.false_eq_true, if_false]
      split_ifs at h <;> cases h <;> simp_all [Parser.reset]
    · simp only [Parser.seen, hn, if_true]
      split_ifs at h <;> cases h <;> simp_all
  · rw [if_neg h2]
    unfold csInterfaceDescriptor at h
    dsimp only at h
    split_ifs at h with h4 h5 h6
    · rw [if_neg (by rw [h4]; exact fun h => absurd h.2 (by decide))]
      cases h
      rfl
    · rw [if_pos ⟨h3, h5⟩]
      cases h
      rfl
    · rw [if_neg (fun h => h5 h.2)]
      cases h
      rfl
    · rw [if_neg (fun h => h5 h.2)]
      cases h
      rfl
  · rw [if_neg h2, if_neg (fun h => h3 h.1)]
    cases h
    rfl

/-! ### Readable configurations -/

lemma parseLoop_turn (hpos : pos < c.len) (hgo : (lookAt usb c pos p).2 = .goOn q) :
    parseLoop usb c (fuel + 1) pos p log = parseLoop usb c fuel (pos + c.bLength pos) q.next
      ((pos, 1) :: (lookAt usb c pos p).1 ++ (pos + 1, 1) :: log) := by
  conv_lhs => unfold parseLoop
  rw [if_neg (by omega)]
  generalize lookAt usb c pos p = x at hgo
  obtain ⟨reads, verdict⟩ := x
  subst hgo
  rfl

lemma Readable.parseLoop (h : Readable c) : ∀ {fuel n pos : ℕ} {p : Parser} {log : List Access},
    Chain c n pos p.seen → c.len ≤ pos + fuel → Within c.len log →
      (parseLoop usb c fuel pos p log).1 ≠ .running ∧ Within c.len (parseLoop usb c fuel pos p log).2 := by
  intro fuel
  induction fuel with
  | zero =>
    intro n pos p log _ hle hlog
    unfold Eth.parseLoop
    rw [if_pos (by omega)]
    exact ⟨nofun, hlog⟩
  | succ fuel ih =>
    intro n pos p log hchain hle hlog
    by_cases hend : c.len ≤ pos
    · unfold Eth.parseLoop
      rw [if_pos hend]
      exact ⟨nofun, hlog⟩
    have hpos : pos < c.len := by omega
    obtain ⟨hlen, hext⟩ := h n pos p.seen hchain hpos
    have hreads : Within c.len ((lookAt usb c pos p).1 ++ (pos + 1, 1) :: log) := within_lookAt.2 ⟨hext, hlog⟩
    cases hv : (lookAt usb c pos p).2 with
    | goOn q =>
      rw [parseLoop_turn hpos hv]
      have hseen : q.next.seen = c.after pos p.seen := (Parser.next_seen q).trans (lookAt_seen hv)
      apply ih
      · rw [hseen]
        exact hchain.next hpos
      · omega
      · exact within_cons.2 ⟨fun _ => hpos, hreads⟩
    | success _ | failed =>
      unfold Eth.parseLoop
      rw [if_neg hend]
      generalize lookAt usb c pos p = x at hv hreads
      obtain ⟨reads, verdict⟩ := x
      subst hv
      exact ⟨nofun, hreads⟩

lemma Readable.visit (h : Readable c) (usb : UsbAnswers) (p : Parser) : (visit usb c p).Confined := by
  have hstart : Chain c 0 0 ({ found := p.found, count := p.count } : Parser).seen := .first
  exact h.parseLoop hstart (by omega) (by simp [Within])

/-! ### A device that lets the loops run to their ends

A configuration that can be set, and no address: then the loops are not left before their ends. -/

def patient : UsbAnswers := ⟨fun _ => true, fun _ => false⟩

lemma lookAt_patient (c : Config) (pos : ℕ) (hmac : p.hasMacAddr = false) :
    ∃ q, (lookAt patient c pos p).2 = .goOn q ∧ q.hasMacAddr = false := by
  unfold lookAt
  split_ifs
  · unfold endpointDescriptor
    dsimp only
    split_ifs <;> simp_all
  · unfold interfaceDescriptor patient
    dsimp only
    split_ifs <;> simp_all [Parser.reset]
  · unfold csInterfaceDescriptor patient
    dsimp only
    split_ifs <;> simp_all
  · exact ⟨p, rfl, hmac⟩

lemma parseLoop_log : ∀ {fuel pos : ℕ} {p : Parser} {log : List Access},
    Within T (parseLoop usb c fuel pos p log).2 → Within T log := by
  intro fuel
  induction fuel with
  | zero =>
    intro pos p log h
    unfold parseLoop at h
    split_ifs at h <;> exact h
  | succ fuel ih =>
    intro pos p log h
    unfold parseLoop at h
    split_ifs at h with hend
    · exact h
    generalize lookAt usb c pos p = x at h
    obtain ⟨reads, _ | _ | _⟩ := x
    · have hall := ih h
      rw [cons_append, within_cons, within_append, within_cons] at hall
      exact hall.2.2.2
    all_goals
      rw [within_append, within_cons] at h
      exact h.2.2

lemma parseLoop_stuck (hpos : pos < c.len) (h0 : c.bLength pos = 0) : ∀ {fuel : ℕ} {p : Parser} {log : List Access},
    p.hasMacAddr = false → (parseLoop patient c fuel pos p log).1 = .running := by
  intro fuel
  induction fuel with
  | zero =>
    intro p log _
    unfold parseLoop
    rw [if_neg (by omega)]
  | succ fuel ih =>
    intro p log hmac
    obtain ⟨q, hgo, hq⟩ := lookAt_patient c pos hmac
    rw [parseLoop_turn hpos hgo, h0]
    exact ih hq

lemma parseLoop_reaches {p0 : Parser} (hseen : p0.seen = {}) (hmac : p0.hasMacAddr = false)
    (hok : (parseLoop patient c c.len 0 p0 []).1 ≠ .running) (hchain : Chain c n pos seen) (hpos : pos < c.len) :
    n < c.len ∧ ∃ p log, p.seen = seen ∧ p.hasMacAddr = false ∧
      parseLoop patient c c.len 0 p0 [] = parseLoop patient c (c.len - n) pos p log := by
  induction hchain with
  | first => exact ⟨hpos, p0, [], hseen, hmac, rfl⟩
  | @next n pos seen hprev hlt ih =>
    obtain ⟨hn, p, log, hp, hpmac, heq⟩ := ih hlt
    obtain ⟨q, hgo, hq⟩ := lookAt_patient c pos hpmac
    obtain ⟨m, hm⟩ : ∃ m, c.len - n = m + 1 := ⟨c.len - n - 1, by omega⟩
    rw [hm, parseLoop_turn hlt hgo] at heq
    -- without a turn left the loop would not have come to an end
    have hm0 : m ≠ 0 := by
      intro h0
      rw [heq, h0] at hok
      unfold parseLoop at hok
      rw [if_neg (by omega)] at hok
      exact hok rfl
    have hsub : c.len - (n + 1) = m := by omega
    rw [hsub]
    have hseen' : q.next.seen = c.after pos seen := (Parser.next_seen q).trans (hp ▸ lookAt_seen hgo)
    exact ⟨by omega, _, _, hseen', hq, heq⟩

lemma readable_of_visit (h : (visit patient c p).Confined) : Readable c := by
  obtain ⟨hok, hlog⟩ := h
  intro n pos seen hchain hpos
  obtain ⟨hn, q, log, hq, hmac, heq⟩ := parseLoop_reaches rfl rfl hok hchain hpos
  obtain ⟨r, hgo, -⟩ := lookAt_patient c pos hmac
  refine ⟨fun h0 => ?_, ?_⟩
  · apply hok
    exact (congrArg Prod.fst heq).trans (parseLoop_stuck hpos h0 hmac)
  · obtain ⟨m, hm⟩ : ∃ m, c.len - n = m + 1 := ⟨c.len - n - 1, by omega⟩
    change Within c.len (parseLoop patient c c.len 0 { found := p.found, count := p.count } []).2 at hlog
    rw [heq, hm, parseLoop_turn hpos hgo] at hlog
    have hall := parseLoop_log hlog
    rw [cons_append, within_cons] at hall
    rw [← hq]
    exact (within_lookAt.1 hall.2).1

lemma parseLoop_patient : ∀ {fuel pos : ℕ} {p : Parser} {log : List Access}, p.hasMacAddr = false →
    (parseLoop patient c fuel pos p log).1 ≠ .running → ∃ q, (parseLoop patient c fuel pos p log).1 = .finished q := by
  intro fuel
  induction fuel with
  | zero =>
    intro pos p log _ hok
    unfold parseLoop at hok ⊢
    split_ifs at hok ⊢ with hend
    · exact ⟨p, rfl⟩
    · exact absurd rfl hok
  | succ fuel ih =>
    intro pos p log hmac hok
    by_cases hend : c.len ≤ pos
    · unfold parseLoop
      rw [if_pos hend]
      exact ⟨p, rfl⟩
    · obtain ⟨q, hgo, hq⟩ := lookAt_patient c pos hmac
      rw [parseLoop_turn (by omega) hgo] at hok ⊢
      exact ih hq hok

/-! ### All configurations -/

lemma parseConfigs_confined : ∀ {cs : List Config} {p : Parser},
    (∀ c ∈ cs, c.len ≤ descriptorMaxLen → c.fetched = true → Readable c) → ∀ v ∈ (parseConfigs usb cs p).2, v.Confined := by
  intro cs
  induction cs with
  | nil =>
    intro p _ v hv
    cases hv
  | cons c cs ih =>
    intro p h v hv
    unfold parseConfigs at hv
    have htail := fun d hd => h d (mem_cons_of_mem c hd)
    split_ifs at hv with hskip
    · exact ih htail v hv
    · rw [not_or, Nat.not_lt, Bool.not_eq_false] at hskip
      have hvisit := (h c (mem_cons_self ..) hskip.1 hskip.2).visit usb p
      dsimp only at hv
      split at hv
      · rcases mem_cons.1 hv with rfl | hv
        · exact hvisit
        · exact ih htail v hv
      all_goals exact mem_singleton.1 hv ▸ hvisit

lemma readable_of_parseConfigs : ∀ {cs : List Config} {p : Parser}, (∀ v ∈ (parseConfigs patient cs p).2, v.Confined) →
    ∀ c ∈ cs, c.len ≤ descriptorMaxLen → c.fetched = true → Readable c := by
  intro cs
  induction cs with
  | nil =>
    intro p _ c hc
    cases hc
  | cons c cs ih =>
    intro p h d hd hlen hfetched
    unfold parseConfigs at h
    split_ifs at h with hskip
    · rcases mem_cons.1 hd with rfl | hd
      · simp [hfetched, Nat.not_lt.2 hlen] at hskip
      · exact ih h d hd hlen hfetched
    · have hmem : visit patient c p ∈ (match (visit patient c p).outcome with
          | .finished q => ((parseConfigs patient cs q).1, visit patient c p :: (parseConfigs patient cs q).2)
          | .success found => (some found, [visit patient c p])
          | .failed | .running => (none, [visit patient c p])).2 := by
        split <;> simp
      have hvisit : (visit patient c p).Confined := h _ hmem
      obtain ⟨q, hq⟩ : ∃ q, (visit patient c p).outcome = .finished q := parseLoop_patient rfl hvisit.1
      rcases mem_cons.1 hd with rfl | hd
      · exact readable_of_visit hvisit
      · refine ih (p := q) (fun v hv => h v ?_) d hd hlen hfetched
        dsimp only
        rw [hq]
        exact mem_cons_of_mem _ hv

/-- **The descriptors of a device.**  Whatever the calls to the device come to, the loops are left within as many turns as
the configuration has bytes, and only those bytes are read, exactly when every configuration is readable. -/
theorem descriptors_confined (ifnumsUsed : BitVec 8) (dev : Device) : (∀ usb, ∀ v ∈ (findEthernet usb ifnumsUsed dev).2, v.Confined) ↔
      (ifnumsUsed ≠ 0xFF → dev.fetched = true → dev.bDeviceClass = usbInterfaceSpecificClass →
        ∀ c ∈ dev.configs, c.len ≤ descriptorMaxLen → c.fetched = true → Readable c) := by
  refine ⟨fun h hused hfetched hclass => ?_, fun h usb v hv => ?_⟩
  · have hpatient := h patient
    unfold findEthernet at hpatient
    rw [if_neg hused, if_neg (by simp [hfetched]), if_neg (by simp [hclass])] at hpatient
    exact readable_of_parseConfigs hpatient
  · unfold findEthernet at hv
    split_ifs at hv with hused hfetched hclass
    · cases hv
    · cases hv
    · cases hv
    · exact parseConfigs_confined (h hused (by simpa using hfetched) (by simpa using hclass)) v hv

/-- A configuration of 18 bytes: its own descriptor of nine bytes, and one of length zero.  The loop does not move on. -/
theorem no_progress : ¬ ∀ v ∈ (findEthernet patient 0
    ⟨true, 0, [⟨18, true, Mem.ofBytes [9, 2, 18, 0, 1, 1, 0, 0x80, 50, 0, 4, 0, 0, 1, 2, 6, 0, 0]⟩]⟩).2, v.Confined := by
  intro h
  have hvisit := h (visit patient _ {}) (mem_singleton_self _)
  exact hvisit.1 rfl

end LwftpCe.Eth
