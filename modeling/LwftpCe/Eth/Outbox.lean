import LwftpCe.Eth.Driver

/-!
# Transmit buffers

`ecm_bulk_transmit` and `ncm_bulk_transmit` copy a frame into a pbuf of their own and hand it to the USB stack, which passes
the pbuf to `bulk_transmit_callback` when the transfer has completed.  The callback takes the pbuf for the device too: its
`device` is then the first field of the pbuf, which is `NULL`, and its `tx.endpoint` lies behind the receive buffer of a
device, far behind the pbuf.
-/

namespace LwftpCe.Eth

open Lib List

/-- A pbuf that was allocated for a transmission on the device `dev`.  An endpoint is named by its device, and `none` is
something else than the transmit endpoint of a device. -/
structure TxBuf where
  dev : ℕ
  payload : Bytes
  /-- not in the code: the transfers that have been scheduled and not completed, and the calls of `pbuf_free` -/
  pending : ℕ
  freed : ℕ := 0
  /-- not in the code: the transfers that were scheduled again, and the devices that were disabled -/
  retried : List (Option ℕ × Bytes) := []
  disabled : List (Option ℕ) := []

structure Outbox where
  world : Driver := {}
  ncm : ℕ → Ncm := fun _ => {}
  bufs : List TxBuf := []

namespace Outbox

def emit (d : ℕ) (payload : Bytes) (scheduled : Bool) (o : Outbox) : Outbox :=
  { o with bufs := o.bufs ++ [{ dev := d, payload := payload, pending := if scheduled then 1 else 0 }] }

/-- `ecm_bulk_transmit`: whether `pbuf_alloc`, `pbuf_copy` and `schedule_transfer` succeed.  `pbuf_copy` fails without a
pbuf. -/
def ecmBulkTransmit (d : ℕ) (frame : Bytes) (alloc copied scheduled : Bool) (o : Outbox) : Outbox :=
  if frame.length > ethernetMtu then o
  else if alloc = false then o
  else o.emit d frame (copied && scheduled)

def ncmTransmit (d : ℕ) (frame : Bytes) (alloc scheduled : Bool) (o : Outbox) : Option Outbox :=
  match ncmBulkTransmit alloc frame (o.ncm d) with
  | (.undefined, _) => none
  | (.errMem, _) => some o
  | (.sent block, ncm) => some { o.emit d block scheduled with ncm := Function.update o.ncm d ncm }

/-- `bulk_transmit_callback` for a pbuf; `endpoint` is what stands where a device has its `tx.endpoint`. -/
def completed (ok : Bool) (endpoint : Option ℕ) (scheduled : Bool) (txRetries : ℕ) (b : TxBuf) : TxBuf :=
  if ok then { b with freed := b.freed + 1 }
  else if txRetries = ethUsbMaxRetries then { b with freed := b.freed + 1, disabled := none :: b.disabled }
  else { b with retried := (endpoint, b.payload) :: b.retried, pending := b.pending + if scheduled then 1 else 0 }

def complete (i : ℕ) (ok : Bool) (endpoint : Option ℕ) (scheduled : Bool) (o : Outbox) : Option Outbox :=
  match o.bufs[i]? with
  | none => none
  | some b =>
    if b.pending = 0 then none
    else some { o with
      world := bulkTransmitCallback ok o.world
      bufs := o.bufs.set i (completed ok endpoint scheduled o.world.txRetries { b with pending := b.pending - 1 }) }

inductive Event
  | ecm (d : ℕ) (frame : Bytes) (alloc copied scheduled : Bool)
  | ncm (d : ℕ) (frame : Bytes) (alloc scheduled : Bool)
  | completed (i : ℕ) (ok : Bool) (endpoint : Option ℕ) (scheduled : Bool)

def step (o : Outbox) : Event → Option Outbox
  | .ecm d frame alloc copied scheduled => some (o.ecmBulkTransmit d frame alloc copied scheduled)
  | .ncm d frame alloc scheduled => o.ncmTransmit d frame alloc scheduled
  | .completed i ok endpoint scheduled => o.complete i ok endpoint scheduled

end Outbox

/-- A pbuf is in the hands of the USB stack or has been freed, once; it was scheduled again on its own device, as it was, and
not too often; and no other device was disabled for it. -/
structure TxBuf.Owned (b : TxBuf) : Prop where
  once : b.pending + b.freed = 1
  same : ∀ r ∈ b.retried, r = (some b.dev, b.payload)
  few : b.retried.length ≤ ethUsbMaxRetries
  own : ∀ d ∈ b.disabled, d = some b.dev

/-- The step condition: what is allocated is copied and scheduled, and a transfer that fails is scheduled again on the endpoint of
the device; the counter counts at least the failures of this pbuf, and is not at its limit. -/
def Outbox.Careful (o : Outbox) : Outbox.Event → Prop
  | .ecm _ _ alloc copied scheduled => alloc = true → copied = true ∧ scheduled = true
  | .ncm _ _ _ scheduled => scheduled = true
  | .completed i ok endpoint scheduled => ok = true ∨ ∀ b, o.bufs[i]? = some b →
      endpoint = some b.dev ∧ scheduled = true ∧ b.retried.length ≤ o.world.txRetries ∧ o.world.txRetries < ethUsbMaxRetries

variable {o o' : Outbox} {e : Outbox.Event}

lemma Outbox.emit_owned {d : ℕ} {payload : Bytes} (h : ∀ b ∈ o.bufs, b.Owned) : ∀ b ∈ (o.emit d payload true).bufs, b.Owned := by
  refine forall_mem_append.2 ⟨h, forall_mem_singleton.2 ⟨rfl, by simp, by simp, by simp⟩⟩

lemma Outbox.step_owned (h : ∀ b ∈ o.bufs, b.Owned) (hc : o.Careful e) (hs : o.step e = some o') : ∀ b ∈ o'.bufs, b.Owned := by
  cases e with
  | ecm d frame alloc copied scheduled =>
    cases hs
    unfold ecmBulkTransmit
    split_ifs with hmtu halloc
    · exact h
    · exact h
    · obtain ⟨rfl, rfl⟩ := hc (by simpa using halloc)
      exact emit_owned h
  | ncm d frame alloc scheduled =>
    obtain rfl : scheduled = true := hc
    unfold step ncmTransmit at hs
    dsimp only at hs
    split at hs
    · cases hs
    · cases hs
      exact h
    · cases hs
      exact emit_owned h
  | completed i ok endpoint scheduled =>
    unfold step complete at hs
    dsimp only at hs
    split at hs
    · cases hs
    next b hb =>
      obtain ⟨hpending, hs⟩ := (Option.ite_none_left_eq_some ..).1 hs
      cases hs
      have hown := h b (mem_of_getElem? hb)
      have honce := hown.once
      intro x hx
      rcases mem_or_eq_of_mem_set hx with hx | rfl
      · exact h x hx
      unfold completed
      cases ok with
      | true =>
        rw [if_pos rfl]
        refine ⟨?_, hown.same, hown.few, hown.own⟩
        dsimp only
        omega
      | false =>
        obtain ⟨rfl, rfl, hle, hlt⟩ := hc.resolve_left (by simp) b hb
        rw [if_neg (by simp), if_neg hlt.ne]
        refine ⟨?_, ?_, ?_, hown.own⟩
        · dsimp only
          rw [if_pos rfl]
          omega
        · exact forall_mem_cons.2 ⟨rfl, hown.same⟩
        · exact Nat.succ_le_of_lt (lt_of_le_of_lt hle hlt)

/-- **Every transmit buffer is released once and retried on its own device**, in the runs whose steps are careful. -/
theorem outbox_owned {es : List Outbox.Event} (world : Driver) (ncm : ℕ → Ncm)
    (hc : Along Outbox.Careful Outbox.step ⟨world, ncm, []⟩ es) (h : run Outbox.step ⟨world, ncm, []⟩ es = some o) :
    ∀ b ∈ o.bufs, b.Owned :=
  run_inv_along (fun o : Outbox => ∀ b ∈ o.bufs, b.Owned) (fun _ _ _ h hc hs => Outbox.step_owned h hc hs) (by simp) hc h

def onceFailed (endpoint : Option ℕ) : List Outbox.Event :=
  [.ecm 0 [1, 2, 3] true true true, .completed 0 false endpoint true, .completed 0 true none true]

theorem outbox_owned_once : ∃ o, run Outbox.step {} (onceFailed (some 0)) = some o ∧ o.bufs.length = 1 ∧ ∀ b ∈ o.bufs, b.Owned := by
  have hc : Along Outbox.Careful Outbox.step {} (onceFailed (some 0)) := by
    refine ⟨fun _ => ⟨rfl, rfl⟩, fun o ho => ?_⟩
    cases ho
    refine ⟨.inr fun b hb => ?_, fun _ _ => ⟨.inl rfl, fun _ _ => trivial⟩⟩
    cases hb
    exact ⟨rfl, rfl, by decide, by decide⟩
  obtain ⟨o, ho, hlen⟩ : ∃ o, run Outbox.step {} (onceFailed (some 0)) = some o ∧ o.bufs.length = 1 := ⟨_, rfl, rfl⟩
  exact ⟨o, ho, hlen, outbox_owned {} (fun _ => {}) hc ho⟩

def sixFailed : List Outbox.Event :=
  .ecm 0 [1, 2, 3] true true true :: (List.range 6).flatMap fun k =>
    [.completed 0 false (some 0) true, .ecm 1 [4] true true true, .completed (k + 1) true none true]

/-- The failed transfer is scheduled on what stands behind the pbuf; a pbuf whose transfer cannot be scheduled is not freed;
where the callback gives up, the device `NULL` is disabled; and the transfers of another device reset the counter. -/
theorem outbox_lost : (∃ o, run Outbox.step {} (onceFailed none) = some o ∧ ¬ ∀ b ∈ o.bufs, b.Owned) ∧
    (∃ o, run Outbox.step {} [.ecm 0 [1, 2, 3] true true false] = some o ∧ ¬ ∀ b ∈ o.bufs, b.Owned) ∧
    (∃ o, run Outbox.step {} (.ecm 0 [1, 2, 3] true true true :: List.replicate 6 (.completed 0 false (some 0) true)) = some o ∧
      ¬ ∀ b ∈ o.bufs, b.Owned) ∧
    ∃ o, run Outbox.step {} sixFailed = some o ∧ ¬ ∀ b ∈ o.bufs, b.Owned := by
  refine ⟨⟨_, rfl, fun h => ?_⟩, ⟨_, rfl, fun h => ?_⟩, ⟨_, rfl, fun h => ?_⟩, _, rfl, fun h => ?_⟩
  · exact absurd ((h _ mem_cons_self).same _ mem_cons_self) (by decide)
  · exact absurd (h _ mem_cons_self).once (by decide)
  · exact absurd ((h _ mem_cons_self).own _ mem_cons_self) (by decide)
  · exact absurd (h _ mem_cons_self).few (by decide)

end LwftpCe.Eth
