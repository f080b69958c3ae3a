import Sommelier.Handler.Registry

/-!
# Formats of the dma-buf global

The host reports its formats and modifiers to the object the proxy bound, and answers a
callback when it has sent them. The guest gets them as feedback objects that the proxy
makes up. System calls that make a feedback table fail as the parameter `tables` says.

## Main definitions

* `onFormat`, `onModifier`: the reports of the host.
* `createSyntheticFeedback`, `refreshSyntheticFeedbacks`: the tables of feedback objects.
* `completeCapabilityDiscovery`, `callbackOnDone`: the end of the reports.
-/
namespace Sommelier

def feedbackVersion : ℕ := 4

/-- The modifier of a format reported without one. -/
def drmFormatModInvalid : ℕ := 0x00ffffffffffffff

namespace GlobalContext

/-! ## Tables -/

/-- Send one complete table; `none` when there is no device, no table or nothing to list. -/
def queueSyntheticFeedback (c : GlobalContext) (tables : Bool) (guestId generation : ℕ) :
    Option GlobalContext :=
  let pairs := c.feedbackPairs generation
  if c.options.allocator && tables && !pairs.isEmpty &&
      decide (pairs.length ≤ maxFeedbackFormats) then
    some (c.sendGuest (.feedback guestId pairs))
  else none

/-- The feedback objects of a generation. -/
def feedbackIds (c : GlobalContext) (generation : ℕ) : List ℕ :=
  (c.syntheticFeedbackObjects.entries.filter (·.2 == generation)).map (·.1)

def createSyntheticFeedback (c : GlobalContext) (tables : Bool) (factoryId guestId : ℕ) :
    Action × GlobalContext :=
  match c.dmabufGuestGenerations.get factoryId with
  | none => (.drop, c.queueProtocolError)
  | some generation =>
    let c := { c with
      shadowTable := c.shadowTable.trackInterfaceWithVersion guestId .zwpLinuxDmabufFeedbackV1
        feedbackVersion
      syntheticFeedbackObjects := c.syntheticFeedbackObjects.set guestId generation }
    if (c.dmabufCapabilities.get generation).any (·.ready) then
      match c.queueSyntheticFeedback tables guestId generation with
      | some c => (.drop, c)
      | none => (.drop, c.queueProtocolError)
    else (.drop, c)

/-- Send a table to each object, until one cannot be made. -/
def publishFeedbacks (tables : Bool) (generation : ℕ) : List ℕ → GlobalContext → GlobalContext
  | [], c => c
  | guestId :: guestIds, c =>
    match c.queueSyntheticFeedback tables guestId generation with
    | some c => publishFeedbacks tables generation guestIds c
    | none => c.queueProtocolError

def completeCapabilityDiscovery (c : GlobalContext) (tables : Bool) (generation : ℕ) :
    GlobalContext :=
  match c.dmabufCapabilities.get generation with
  | none => c
  | some capabilities =>
    if capabilities.ready then c
    else
      let c := { c with
        dmabufCapabilities :=
          c.dmabufCapabilities.set generation { capabilities with ready := true } }
      let c := c.publishPendingDmabufGlobals generation
      publishFeedbacks tables generation (c.feedbackIds generation) c

/-- Send a new table to each object that got none in this batch of messages. -/
def refreshFeedbacks (tables : Bool) (generation : ℕ) : List ℕ → GlobalContext → GlobalContext
  | [], c => c
  | guestId :: guestIds, c =>
    if guestId ∈ c.syntheticFeedbackRefreshPending then
      refreshFeedbacks tables generation guestIds c
    else
      let c := { c with
        syntheticFeedbackRefreshPending := insert guestId c.syntheticFeedbackRefreshPending }
      match c.queueSyntheticFeedback tables guestId generation with
      | some c => refreshFeedbacks tables generation guestIds c
      | none =>
        { c with
          syntheticFeedbackRefreshPending :=
            c.syntheticFeedbackRefreshPending.erase guestId }.queueProtocolError

def refreshSyntheticFeedbacks (c : GlobalContext) (tables : Bool) : GlobalContext :=
  match c.hostDmabufGeneration with
  | none => c
  | some generation =>
    if (c.dmabufCapabilities.get generation).any (·.ready) then
      refreshFeedbacks tables generation (c.feedbackIds generation) c
    else c

/-! ## Reports of the host -/

/-- Add a pair to the current generation; `true` when it is new. -/
def recordPair (c : GlobalContext) (pair : ℕ × ℕ) : Bool × GlobalContext :=
  match c.hostDmabufGeneration with
  | none => (false, c)
  | some generation =>
    let capabilities := (c.dmabufCapabilities.get generation).getD .empty
    if decide (capabilities.formatModifiers.length < maxFeedbackFormats) &&
        !capabilities.formatModifiers.contains pair then
      (true, { c with
        dmabufCapabilities := c.dmabufCapabilities.set generation
          { capabilities with formatModifiers := capabilities.formatModifiers ++ [pair] } })
    else
      (false, { c with dmabufCapabilities := c.dmabufCapabilities.set generation capabilities })

/-- A report to the object of the proxy is recorded. One to an object the guest bound is
forwarded to a guest that expects such events. -/
def onReport (c : GlobalContext) (tables : Bool) (hostId format modifier : ℕ) :
    Action × GlobalContext :=
  if !isSupportedDrmFormat format then (.drop, c)
  else if c.hostDmabufId = some hostId then
    let (changed, c) := (c.recordHostShmDrmFormat format).recordPair (format, modifier)
    (.drop, if changed then c.refreshSyntheticFeedbacks tables else c)
  else if ((c.shadowTable.getGuestId hostId).bind c.shadowTable.guestObjectVersion).any
      (decide <| feedbackVersion ≤ ·) then (.drop, c)
  else (.forward, c)

def onFormat (c : GlobalContext) (tables : Bool) (hostId format : ℕ) : Action × GlobalContext :=
  c.onReport tables hostId format drmFormatModInvalid

def onModifier (c : GlobalContext) (tables : Bool) (hostId format modifierHi modifierLo : ℕ) :
    Action × GlobalContext :=
  c.onReport tables hostId format (modifierHi * 2 ^ 32 + modifierLo)

/-- `wl_callback.done` of a callback of the proxy. -/
def callbackOnDone (c : GlobalContext) (tables : Bool) (hostId : ℕ) : Action × GlobalContext :=
  match c.dmabufCapabilityCallbacks.get hostId with
  | some generation =>
    let c := { c with
      dmabufCapabilityCallbacks := c.dmabufCapabilityCallbacks.erase hostId
      shadowTable := (c.shadowTable.markPendingDestroyHost hostId).2 }
    (.drop, (c.completeCapabilityDiscovery tables generation).maybeReclaimCapabilityGeneration
      generation)
  | none =>
    match c.gtkShellCapabilityCallbacks.get hostId with
    | some gtkShellId =>
      let c := { c with
        gtkShellCapabilityCallbacks := c.gtkShellCapabilityCallbacks.erase hostId
        shadowTable := (c.shadowTable.markPendingDestroyHost hostId).2 }
      if gtkShellId ∈ c.gtkShells ∧ c.shadowTable.isLocalOnlyGuestObject gtkShellId = true then
        (.drop, c.sendGuest (.gtkCapabilities gtkShellId))
      else (.drop, c)
    | none => (.drop, c)

/-! ## Destructors of the guest -/

def dmabufOnDestroy (c : GlobalContext) (factoryId : ℕ) : Action × GlobalContext :=
  match c.dmabufGuestGenerations.get factoryId with
  | some generation =>
    (.forward, { c with
      dmabufGuestGenerations :=
        c.dmabufGuestGenerations.erase factoryId }.maybeReclaimCapabilityGeneration generation)
  | none => (.forward, c)

def feedbackOnDestroy (c : GlobalContext) (guestId : ℕ) : Action × GlobalContext :=
  match c.syntheticFeedbackObjects.get guestId with
  | some generation =>
    (.drop, { c with
      syntheticFeedbackObjects := c.syntheticFeedbackObjects.erase guestId
      syntheticFeedbackRefreshPending :=
        c.syntheticFeedbackRefreshPending.erase guestId }.maybeReclaimCapabilityGeneration
          generation)
  | none => (.forward, c)

end GlobalContext
end Sommelier
