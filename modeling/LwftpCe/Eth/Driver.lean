import LwftpCe.Buffer.Accounts
import LwftpCe.Eth.Descriptors
import LwftpCe.Eth.Records

/-!
# The driver of `drivers/usb_ethernet.c`

`Sys Driver` is the driver together with the module of the buffers, which tells it the pressure level through
`eth_set_rx_throttle`.

A `usb_device_t` is a number, which names its netif as well; `data d` is what `get_device_data` returns for `d`.  A scheduled
transfer completes once, and ends with the `eth_device_t` that it was scheduled for.  The USB stack, the allocation of an
`eth_device_t` and `netif_add` may come to anything (`Answers`); lwIP behind `netif->input` is the parameter `net`.  Fields that
no code reads are marked: they say what the driver is to be judged by.
-/

namespace LwftpCe.Eth

open Lib Buffer

/-! ### The state -/

inductive Subclass where
  | ecm | ncm
  deriving DecidableEq, Repr

/-- `eth_device_t`, with the parts of its netif that the driver changes. -/
structure EthDevice where
  type : Subclass
  num : ℕ
  up : Bool := false
  linkUp : Bool := false
  rxRing : Option ℕ := none
  rxTransferActive : Bool := false
  rxBuf : Mem := fun _ => 0
  intBuf : Mem := fun _ => 0
  /-- not in the code: the receive and interrupt transfers that have been scheduled and not completed -/
  rxOutstanding : ℕ := 0
  intOutstanding : ℕ := 0
  /-- not in the code: the last `NETWORK_CONNECTION` report -/
  connected : Bool := false
  /-- not in the code: the limit of retries has been hit -/
  failed : Bool := false

/-- The static variables, lwIP's list of netifs and its default netif. -/
structure Driver where
  ifnumsUsed : BitVec 8 := 0
  ethDisabledWithError : Bool := false
  ethRxThrottleLevel : Level := .none
  hookRegistered : Bool := false
  drainScheduled : Bool := false
  rxRetries : Subclass → ℕ := fun _ => 0
  intRetries : ℕ := 0
  txRetries : ℕ := 0
  defaultNetifSet : Bool := false
  netifList : List ℕ := []
  netifDefault : Option ℕ := none
  data : ℕ → Option EthDevice := fun _ => none
  /-- not in the code: device data that was absent has been dereferenced -/
  nullDeref : Bool := false
  /-- not in the code: `pbuf_free` has been called on an `eth_device_t`, whose `rx_ring` it changes: what comes after it is not
  what the code does -/
  deviceFreed : Bool := false
  /-- not in the code: the devices whose last event was `DISCONNECTED` -/
  gone : ℕ → Bool := fun _ => false

def onWorld (f : Driver → Driver) (s : Sys Driver) : Sys Driver := { s with world := f s.world }

def Driver.onDevice (d : ℕ) (f : EthDevice → EthDevice) (w : Driver) : Driver :=
  { w with data := Function.update w.data d ((w.data d).map f) }

/-! ### Scheduling -/

def ethShouldScheduleRx (w : Driver) : Bool := w.ethRxThrottleLevel = .none ∨ w.ethRxThrottleLevel = .mild

def EthDevice.scheduleRx (dev : EthDevice) : EthDevice :=
  { dev with rxTransferActive := true, rxOutstanding := dev.rxOutstanding + 1 }

def EthDevice.resumeRx (dev : EthDevice) : EthDevice := if dev.rxTransferActive then dev else dev.scheduleRx

def ethSetRxThrottle (level : Level) (w : Driver) : Driver :=
  let previous := w.ethRxThrottleLevel
  let w := { w with ethRxThrottleLevel := level }
  if ethShouldScheduleRx w ∨ previous = .critical then
    { w with data := fun d => if d ∈ w.netifList then (w.data d).map EthDevice.resumeRx else w.data d }
  else w

def nextRx (d : ℕ) (w : Driver) : Driver := if ethShouldScheduleRx w then w.onDevice d EthDevice.scheduleRx else w

def ethEnv (structSize : ℕ) : Env Driver := ⟨structSize, ethSetRxThrottle, fun _ w => w⟩

/-! ### Errors -/

def EthDevice.fail (dev : EthDevice) : EthDevice := { dev with failed := true }

def ethUsbMaxRetries : ℕ := 5

/-- The branch of `eth_xmit_fatal_error` at the limit.  The device is disabled: that is an event of its own. -/
def fatalError (d : ℕ) (w : Driver) : Driver :=
  { w.onDevice d EthDevice.fail with ethDisabledWithError := true }

/-! ### Notifications -/

/-- The connection reports in the interrupt buffer: the loop of `interrupt_receive_callback`.  Every turn moves on by eight
bytes or more, so that `transferred` turns are enough. -/
def connectionReports (ibuf : Mem) (transferred : ℕ) : ℕ → ℕ → List Bool
  | 0, _ => []
  | fuel + 1, pos =>
    let here := if ibuf pos = 0xA1 ∧ ibuf (pos + 1) = 0 then [decide (ibuf.word (pos + 2) ≠ 0)] else []
    let next := pos + (8 + ibuf.word (pos + 6))
    here ++ if next < transferred then connectionReports ibuf transferred fuel next else []

def reportsIn (transferred : ℕ) (dev : EthDevice) : List Bool := connectionReports dev.intBuf transferred transferred 0

def EthDevice.report (wValue : Bool) (dev : EthDevice) : EthDevice := { dev with linkUp := wValue, connected := wValue }

def networkConnection (d : ℕ) (w : Driver) (wValue : Bool) : Driver :=
  let w := w.onDevice d (EthDevice.report wValue)
  if wValue then if w.defaultNetifSet then w else { w with netifDefault := some d, defaultNetifSet := true }
  else if w.netifDefault = some d then { w with netifDefault := none, defaultNetifSet := false }
  else w

def EthDevice.scheduleInt (dev : EthDevice) : EthDevice := { dev with intOutstanding := dev.intOutstanding + 1 }
def EthDevice.completeInt (data : Bytes) (dev : EthDevice) : EthDevice :=
  { dev with intOutstanding := dev.intOutstanding - 1, intBuf := dev.intBuf.write 0 data }

def interruptReceiveCallback (d : ℕ) (ok : Bool) (data : Bytes) (w : Driver) : Driver :=
  let w := w.onDevice d (EthDevice.completeInt data)
  if ok = false then
    if w.intRetries = ethUsbMaxRetries then fatalError d w
    else { w with intRetries := w.intRetries + 1 }.onDevice d EthDevice.scheduleInt
  else if data = [] then w.onDevice d EthDevice.scheduleInt
  else
    let w := ((w.data d).elim [] (reportsIn data.length)).foldl (networkConnection d) w
    { w with intRetries := 0 }.onDevice d EthDevice.scheduleInt

def bulkTransmitCallback (ok : Bool) (w : Driver) : Driver :=
  if ok then { w with txRetries := 0 }
  else if w.txRetries = ethUsbMaxRetries then { w with txRetries := 0, ethDisabledWithError := true }
  else { w with txRetries := w.txRetries + 1 }

/-! ### Receiving -/

section Receive

variable (E : Env Driver)

def EthDevice.completeRx (data : Bytes) (dev : EthDevice) : EthDevice :=
  { dev with rxTransferActive := false, rxOutstanding := dev.rxOutstanding - 1, rxBuf := dev.rxBuf.write 0 data }

/-- A receive transfer has failed.  At the limit `ncm_receive_callback` calls `pbuf_free(data)` as well, and `data` is the
device. -/
def rxError (d : ℕ) (type : Subclass) (w : Driver) : Driver :=
  if w.rxRetries type = ethUsbMaxRetries then { fatalError d w with deviceFreed := w.deviceFreed || type = .ncm }
  else nextRx d { w with rxRetries := Function.update w.rxRetries type (w.rxRetries type + 1) }

def clearRetries (type : Subclass) (w : Driver) : Driver := { w with rxRetries := Function.update w.rxRetries type 0 }

def ecmReceiveCallback (d : ℕ) (dev : EthDevice) (ok : Bool) (transferred : ℕ) (s : Sys Driver) : Sys Driver :=
  if ok = false then onWorld (rxError d .ecm) s
  else if transferred = 0 then s
  else
    match ethRingPushFrame E dev.rxRing (dev.rxBuf.read 0 (transferred % 65536)) (onWorld (clearRetries .ecm) s) with
    | (true, s) => onWorld (nextRx d) s
    | (false, s) => s

def ncmFuel : ℕ := rxRingMaxSize + 1

def ncmReceiveCallback (d : ℕ) (dev : EthDevice) (ok : Bool) (transferred : ℕ) (s : Sys Driver) : Option (Sys Driver) :=
  if ok = false then some (onWorld (rxError d .ncm) s)
  else if transferred = 0 then some s
  else
    match ncmParse (ethRingPushFrame E dev.rxRing) dev.rxBuf ncmFuel (onWorld (clearRetries .ncm) s) with
    | ((.running, _), _) => none
    | ((.invalid, _), s) => some s
    | ((.parsed, _), s) => some (onWorld (nextRx d) s)

def receiveCallback (d : ℕ) (ok : Bool) (data : Bytes) (s : Sys Driver) : Option (Sys Driver) :=
  let s := onWorld (Driver.onDevice d (EthDevice.completeRx data)) s
  match s.world.data d with
  | none => none
  | some dev =>
    match dev.type with
    | .ecm => some (ecmReceiveCallback E d dev ok data.length s)
    | .ncm => ncmReceiveCallback E d dev ok data.length s

end Receive

/-! ### Registration -/

/-- What an `ENABLED` event meets: the device, and what the USB stack, `malloc` and `netif_add` come to. -/
structure Answers where
  hub : Bool := false
  device : Device
  usb : UsbAnswers
  ncmControlSetup : Bool := true
  setInterface : Bool := true
  malloc : Bool := true
  netifAdd : Bool := true

def subclassOf (type : UInt8) : Option Subclass :=
  if type = usbNcmSubclass then some .ncm else if type = usbEcmSubclass then some .ecm else none

def ifnumAssigned (ifnumsUsed : BitVec 8) : ℕ := ((List.range 8).find? fun n => !ifnumsUsed.getLsbD n).getD 8

def ethernetType (a : Answers) (ifnumsUsed : BitVec 8) : Option Subclass :=
  match (findEthernet a.usb ifnumsUsed a.device).1 with
  | none => none
  | some setup =>
    if setup.type = usbNcmSubclass ∧ a.ncmControlSetup = false then none
    else
      match subclassOf setup.type with
      | none => none
      | some type => if a.setInterface then some type else none

def EthDevice.renew (type : Subclass) (eth : EthDevice) : EthDevice :=
  { eth with type, up := false, linkUp := false, rxTransferActive := false, rxBuf := fun _ => 0, intBuf := fun _ => 0, failed := false }

/-- The device data: it is taken over with the new configuration, or added; `none` when `init_ethernet_usb_device` returns. -/
def addDevice (d : ℕ) (a : Answers) (type : Subclass) (w : Driver) : Option Driver :=
  match w.data d with
  | some _ =>
    some (w.onDevice d (EthDevice.renew type))
  | none =>
    if a.malloc = false then none
    else if a.netifAdd = false then none
    else
      let num := ifnumAssigned w.ifnumsUsed
      some { w with
        netifList := d :: w.netifList
        data := Function.update w.data d (some { type, num })
        ifnumsUsed := w.ifnumsUsed ||| 1#8 <<< num }

def EthDevice.setRing (i : ℕ) (dev : EthDevice) : EthDevice := { dev with rxRing := some i }

def provideRing (E : Env Driver) (d : ℕ) (s : Sys Driver) : Bool × Sys Driver :=
  match (s.world.data d).bind EthDevice.rxRing with
  | some _ => (true, s)
  | none =>
    match createRxRing E s with
    | (none, s) => (false, s)
    | (some i, s) => (true, onWorld (Driver.onDevice d (EthDevice.setRing i)) s)

def ethRegisterPressureHook (E : Env Driver) (s : Sys Driver) : Sys Driver :=
  if s.world.hookRegistered then s
  else onWorld (fun w => { w with hookRegistered := true }) (memRegisterPressureHookEthRx E s)

def EthDevice.setUp (dev : EthDevice) : EthDevice := { dev with up := true }
def EthDevice.setDown (dev : EthDevice) : EthDevice := { dev with linkUp := false, up := false }

def startDevice (d : ℕ) (w : Driver) : Driver :=
  nextRx d ((w.onDevice d EthDevice.setUp).onDevice d EthDevice.scheduleInt)

def finishInit (E : Env Driver) (d : ℕ) (s : Sys Driver) : Bool × Sys Driver :=
  match provideRing E d s with
  | (false, s) => (false, s)
  | (true, s) =>
    let s := ethRegisterPressureHook E (onWorld (fun w => { w with drainScheduled := true }) s)
    (true, onWorld (startDevice d) s)

def initEthernetUsbDevice (E : Env Driver) (d : ℕ) (a : Answers) (s : Sys Driver) : Bool × Sys Driver :=
  match (ethernetType a s.world.ifnumsUsed).bind fun type => addDevice d a type s.world with
  | none => (false, s)
  | some w => finishInit E d { s with world := w }

def netifRemove (d : ℕ) (w : Driver) : Driver :=
  { w with
    netifList := w.netifList.erase d
    netifDefault := if w.netifDefault = some d then none else w.netifDefault }

def removeDevice (E : Env Driver) (d : ℕ) (dev : EthDevice) (s : Sys Driver) : Sys Driver :=
  let s := onWorld (fun w => netifRemove d { w with ifnumsUsed := w.ifnumsUsed &&& ~~~(1#8 <<< dev.num) }) s
  let s :=
    match dev.rxRing with
    | none => s
    | some i => memBufferDestroy E i s
  onWorld (fun w => { w with data := Function.update w.data d none }) s

def closeDevice (E : Env Driver) (d : ℕ) (s : Sys Driver) : Sys Driver :=
  match s.world.data d with
  | none =>
    -- `&eth_device->iface` of a null pointer
    onWorld (fun w => { w with nullDeref := true, ethDisabledWithError := false }) s
  | some dev =>
    let s := onWorld (Driver.onDevice d EthDevice.setDown) s
    if s.world.ethDisabledWithError then onWorld (fun w => { w with ethDisabledWithError := false }) s
    else removeDevice E d dev s

/-! ### The drain timer -/

def ethDrainBudget (w : Driver) : ℕ :=
  match w.ethRxThrottleLevel with
  | .none => 8
  | .mild => 4
  | .high => 2
  | .critical => 1

def drainNetifs (E : Env Driver) (net : Net Driver) : List ℕ → ℕ → Sys Driver → Sys Driver
  | [], _, s => s
  | d :: ds, budget, s =>
    if budget = 0 then s
    else
      match (s.world.data d).bind EthDevice.rxRing with
      | none => drainNetifs E net ds budget s
      | some i =>
        let (frames, s) := ethRxRingDrain E net i budget s
        drainNetifs E net ds (budget - frames.length) s

def ethRxDrainTimer (E : Env Driver) (net : Net Driver) (s : Sys Driver) : Sys Driver :=
  drainNetifs E net s.world.netifList (ethDrainBudget s.world) s

/-! ### Events -/

/-- What lwIP asks of the module: an operation on a buffer, or one of the functions that `mem_malloc`, `mem_calloc` and
`mem_free` are defined as. -/
inductive LwipOp where
  | buffer (op : BufOp)
  | customMalloc (size : ℕ)
  | customCalloc (count size : ℕ)
  | customFree (ptr : ℕ)

def LwipOp.perform (E : Env Driver) (s : Sys Driver) : LwipOp → Sys Driver
  | .buffer op => Buffer.perform E s op
  | .customMalloc size => (memBufferCustomMalloc E size s).2
  | .customCalloc count size => (memBufferCustomCalloc E count size s).2
  | .customFree ptr => memBufferCustomFree E ptr s

/-- What can happen.  A turn of the drain loop is an event of its own; `elsewhere` is what lwIP does apart from the receive
rings. -/
inductive Event where
  | connected (d : ℕ)
  | enabled (d : ℕ) (a : Answers)
  | disabled (d : ℕ)
  | disconnected (d : ℕ)
  | received (d : ℕ) (ok : Bool) (data : Bytes)
  | interrupted (d : ℕ) (ok : Bool) (data : Bytes)
  | transmitted (ok : Bool)
  | drained (d : ℕ)
  | elsewhere (op : LwipOp)

def Subclass.rxSize : Subclass → ℕ
  | .ecm => ethernetMtu
  | .ncm => 2048

def interruptRxMax : ℕ := 64

/-- The operation is on a live buffer that is not a receive ring, and does not make it one.  The allocations are from the pools
of lwIP. -/
def leavesRings (s : Sys Driver) : LwipOp → Bool
  | .buffer op =>
    op.target.all (fun i => i ∈ s.live ∧ (s.buf i).owner ≠ .ethRx) &&
      match op with
      | .setOwner _ owner => owner ≠ .ethRx
      | _ => true
  | .customMalloc _ | .customCalloc _ _ | .customFree _ => true

def present (d : ℕ) (w : Driver) : Driver := { w with gone := Function.update w.gone d false }

def step (E : Env Driver) (net : Net Driver) (s : Sys Driver) : Event → Option (Sys Driver)
  | .connected d => some (onWorld (present d) s)
  | .enabled d a =>
    let s := onWorld (present d) s
    if a.hub then some s else some (initEthernetUsbDevice E d a s).2
  | .disabled d => some (closeDevice E d s)
  | .disconnected d => some (onWorld (fun w => { w with gone := Function.update w.gone d true }) (closeDevice E d s))
  | .received d ok data =>
    match s.world.data d with
    | none => none
    | some dev => if 0 < dev.rxOutstanding ∧ data.length ≤ dev.type.rxSize then receiveCallback E d ok data s else none
  | .interrupted d ok data =>
    match s.world.data d with
    | none => none
    | some dev =>
      if 0 < dev.intOutstanding ∧ data.length ≤ interruptRxMax then
        some (onWorld (interruptReceiveCallback d ok data) s)
      else none
  | .transmitted ok => some (onWorld (bulkTransmitCallback ok) s)
  | .drained d =>
    match (s.world.data d).bind EthDevice.rxRing with
    | none => none
    | some i => if d ∈ s.world.netifList then some (drainFrame E net i s).2 else none
  | .elsewhere op => if leavesRings s op then some (op.perform E s) else none

end LwftpCe.Eth
