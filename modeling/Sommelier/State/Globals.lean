import Sommelier.State.Context

/-!
# Context of the globals

The part of the session state that advertises host globals to the guest: what each
registry was told, the generations of re-used names, the bindings the proxy keeps for
itself, the formats the host supports, and the feedback objects made from them.

## Main definitions

* `GuestEvent`, `HostRequest`: what the handlers send to either side.
* `GlobalContext`: the state.
* `noteRegistryGlobal`: the generation a registry's advertisement belongs to.
* `publishPendingDmabufGlobals`: advertisements that waited for the host's formats.
* `maybeReclaimCapabilityGeneration`: the end of a set of formats.
-/
namespace Sommelier

def maxFeedbackFormats : ℕ := 65536

/-! ## Data -/

/-- A global as the guest may bind it. -/
structure HostGlobal where
  interface : Interface
  version : ℕ
  deriving DecidableEq, Repr

/-- A dma-buf global that waits for the formats of its generation. -/
structure PendingDmabufGlobal where
  registryHostId : ℕ
  name : ℕ
  version : ℕ
  generation : ℕ
  deriving DecidableEq, Repr

/-- The formats and modifiers of one generation of the dma-buf global. -/
structure DmabufCapabilityState where
  formatModifiers : List (ℕ × ℕ)
  ready : Bool
  deriving DecidableEq, Repr

def DmabufCapabilityState.empty : DmabufCapabilityState where
  formatModifiers := []
  ready := false

/-- Events the handlers send to the guest. A feedback sequence is sent as a whole. -/
inductive GuestEvent
  | global (registry name : ℕ) (interface : Interface) (version : ℕ)
  | globalRemove (registry name : ℕ)
  | shmFormat (shm format : ℕ)
  | feedback (object : ℕ) (pairs : List (ℕ × ℕ))
  | dmabufFormat (factory format : ℕ)
  | dmabufModifier (factory format modifier : ℕ)
  | gtkCapabilities (shell : ℕ)
  | deleteId (object : ℕ)
  deriving DecidableEq, Repr

/-- Requests the handlers send to the host. -/
inductive HostRequest
  | getRegistry (registry : ℕ)
  | bind (registry name : ℕ) (interface : Interface) (version newId : ℕ)
  | create (newId : ℕ)
  | sync (callback : ℕ)
  | destroy (object : ℕ)
  deriving DecidableEq, Repr

/-- What the proxy was started with: the GPU path, a GBM allocator, a VirtWL channel and its
support of dma-bufs, and the decoration protocol. -/
structure GlobalOptions where
  gpuAccel : Bool
  allocator : Bool
  virtwaylandChannel : Option Bool
  xdgDecoration : Bool
  deriving DecidableEq, Repr

structure GlobalContext where
  options : GlobalOptions
  shadowTable : ShadowTable
  -- the registries
  hostGlobals : Table ℕ HostGlobal
  hiddenHostGlobals : Table ℕ Interface
  removedHostGlobals : Finset ℕ
  registryGlobalNames : Table ℕ (Finset ℕ)
  registryGlobalRemoved : Table ℕ (Finset ℕ)
  registryGlobalGenerations : Table ℕ (Table ℕ ℕ)
  registryGlobalVisibility : Table ℕ (Table ℕ Bool)
  globalGenerations : Table ℕ ℕ
  nextGlobalGeneration : ℕ
  pendingDmabufGlobals : List PendingDmabufGlobal
  -- the bindings of the proxy
  hostDmabufId : Option ℕ
  hostDmabufGlobalName : Option ℕ
  hostDmabufGeneration : Option ℕ
  hostShmId : Option ℕ
  hostShmGlobalName : Option ℕ
  hostTextInputManagerV1Id : Option ℕ
  hostTextInputManagerV1GlobalName : Option ℕ
  hostTextInputExtensionV1Id : Option ℕ
  hostTextInputExtensionV1GlobalName : Option ℕ
  hostKeyboardExtensionId : Option ℕ
  hostKeyboardExtensionGlobalName : Option ℕ
  hostZauraShellId : Option ℕ
  hostZauraShellGlobalName : Option ℕ
  hostZauraShellVersion : ℕ
  -- objects the proxy emulates
  gtkShells : Finset ℕ
  gtkShellCapabilityCallbacks : Table ℕ ℕ
  dmabufCapabilities : Table ℕ DmabufCapabilityState
  dmabufCapabilityCallbacks : Table ℕ ℕ
  dmabufGuestGenerations : Table ℕ ℕ
  syntheticFeedbackObjects : Table ℕ ℕ
  syntheticFeedbackRefreshPending : Finset ℕ
  shmGuestFormats : Table ℕ (Finset ℕ)
  hostShmFormats : Finset ℕ
  hostWlShmFormats : Finset ℕ
  hostDmabufShmFormats : Finset ℕ
  staleShmGuestObjects : Finset ℕ
  /-- The pools, with the `wl_shm` each came from, which the code does not record. -/
  pools : Table ℕ ℕ
  staleShmPools : Finset ℕ
  -- what was sent, newest first
  guestEvents : List GuestEvent
  hostRequests : List HostRequest
  fatalProtocolError : Bool

namespace GlobalContext

/-- The session before its first request. -/
def new (options : GlobalOptions) : GlobalContext where
  options
  shadowTable := (ShadowTable.new.mapId 1 1).trackInterface 1 .wlDisplay
  hostGlobals := ∅
  hiddenHostGlobals := ∅
  removedHostGlobals := ∅
  registryGlobalNames := ∅
  registryGlobalRemoved := ∅
  registryGlobalGenerations := ∅
  registryGlobalVisibility := ∅
  globalGenerations := ∅
  nextGlobalGeneration := 1
  pendingDmabufGlobals := []
  hostDmabufId := none
  hostDmabufGlobalName := none
  hostDmabufGeneration := none
  hostShmId := none
  hostShmGlobalName := none
  hostTextInputManagerV1Id := none
  hostTextInputManagerV1GlobalName := none
  hostTextInputExtensionV1Id := none
  hostTextInputExtensionV1GlobalName := none
  hostKeyboardExtensionId := none
  hostKeyboardExtensionGlobalName := none
  hostZauraShellId := none
  hostZauraShellGlobalName := none
  hostZauraShellVersion := 0
  gtkShells := ∅
  gtkShellCapabilityCallbacks := ∅
  dmabufCapabilities := ∅
  dmabufCapabilityCallbacks := ∅
  dmabufGuestGenerations := ∅
  syntheticFeedbackObjects := ∅
  syntheticFeedbackRefreshPending := ∅
  shmGuestFormats := ∅
  hostShmFormats := ∅
  hostWlShmFormats := ∅
  hostDmabufShmFormats := ∅
  staleShmGuestObjects := ∅
  pools := ∅
  staleShmPools := ∅
  guestEvents := []
  hostRequests := []
  fatalProtocolError := false

def sendGuest (c : GlobalContext) (event : GuestEvent) : GlobalContext :=
  { c with guestEvents := event :: c.guestEvents }

def sendHost (c : GlobalContext) (request : HostRequest) : GlobalContext :=
  { c with hostRequests := request :: c.hostRequests }

def queueProtocolError (c : GlobalContext) : GlobalContext := { c with fatalProtocolError := true }

/-! ## What a registry was told -/

/-- The names a registry lists. -/
def namesOf (c : GlobalContext) (registryId : ℕ) : Finset ℕ :=
  (c.registryGlobalNames.get registryId).getD ∅

/-- The names whose removal a registry observed. -/
def removedOf (c : GlobalContext) (registryId : ℕ) : Finset ℕ :=
  (c.registryGlobalRemoved.get registryId).getD ∅

def generationOf (c : GlobalContext) (registryId name : ℕ) : Option ℕ :=
  (c.registryGlobalGenerations.get registryId).bind fun generations => generations.get name

def visibilityOf (c : GlobalContext) (registryId name : ℕ) : Option Bool :=
  (c.registryGlobalVisibility.get registryId).bind fun visibility => visibility.get name

def recordRegistryGlobalVisibility (c : GlobalContext) (registryId name : ℕ) (visible : Bool) :
    GlobalContext :=
  { c with
    registryGlobalVisibility := c.registryGlobalVisibility.set registryId
      (((c.registryGlobalVisibility.get registryId).getD ∅).set name visible) }

/-- Some registry lists the name at its current generation. -/
def stillSeen (c : GlobalContext) (name : ℕ) : Bool :=
  c.registryGlobalNames.any fun registryId names =>
    decide (name ∈ names) && c.generationOf registryId name == c.globalGenerations.get name

/-! ## Generations -/

/-- A number no name had; the counter is a 64-bit word that skips zero. -/
def nextGeneration (c : GlobalContext) : ℕ × GlobalContext :=
  let generation := max c.nextGlobalGeneration 1
  (generation, { c with nextGlobalGeneration := max ((generation + 1) % 2 ^ 64) 1 })

/-- Begin a new generation of a name. -/
def startGeneration (c : GlobalContext) (name : ℕ) : ℕ × GlobalContext :=
  let (generation, c) := c.nextGeneration
  (generation, { c with globalGenerations := c.globalGenerations.set name generation })

/-- The generation an advertisement belongs to. A registry that removed the current one sees
its replacement; any other registry sees the current one. -/
def generationFor (c : GlobalContext) (registryId name : ℕ) : ℕ × GlobalContext :=
  match c.globalGenerations.get name with
  | none => c.startGeneration name
  | some current =>
    if name ∈ c.removedOf registryId ∧ c.generationOf registryId name = some current then
      c.startGeneration name
    else (current, c)

/-- Record an advertisement; `false` when the registry lists the name already. -/
def noteRegistryGlobal (c : GlobalContext) (registryId name : ℕ) : Bool × GlobalContext :=
  if name ∈ c.namesOf registryId ∧
      c.generationOf registryId name = c.globalGenerations.get name then (false, c)
  else
    let (generation, c) := c.generationFor registryId name
    (true, { c with
      registryGlobalNames :=
        c.registryGlobalNames.set registryId (insert name (c.namesOf registryId))
      registryGlobalRemoved := c.registryGlobalRemoved.modify registryId (·.erase name)
      registryGlobalGenerations := c.registryGlobalGenerations.set registryId
        (((c.registryGlobalGenerations.get registryId).getD ∅).set name generation) })

/-! ## Formats and modifiers -/

/-- The pairs a feedback table lists, each once and in the order the host sent them. -/
def feedbackPairs (c : GlobalContext) (generation : ℕ) : List (ℕ × ℕ) :=
  match c.dmabufCapabilities.get generation with
  | none => []
  | some capabilities =>
    capabilities.formatModifiers.foldl (fun pairs pair =>
      if isSupportedDrmFormat pair.1 && !pairs.contains pair &&
          decide (pairs.length < maxFeedbackFormats) then pairs ++ [pair]
      else pairs) []

def hasSyntheticFeedbackFormats (c : GlobalContext) (generation : ℕ) : Bool :=
  !(c.feedbackPairs generation).isEmpty

/-- Forget the formats of a generation that nothing refers to. -/
def maybeReclaimCapabilityGeneration (c : GlobalContext) (generation : ℕ) : GlobalContext :=
  if c.hostDmabufGeneration == some generation ||
      c.dmabufCapabilityCallbacks.any (fun _ value => value == generation) ||
      c.dmabufGuestGenerations.any (fun _ value => value == generation) ||
      c.syntheticFeedbackObjects.any (fun _ value => value == generation) ||
      c.pendingDmabufGlobals.any (fun pending => pending.generation == generation) then c
  else { c with dmabufCapabilities := c.dmabufCapabilities.erase generation }

/-! ## Advertisements of the proxy -/

/-- Advertise a global in place of the host. The interfaces it is called for have short
names, so the event always encodes. -/
def queueSyntheticGlobalForRegistry (c : GlobalContext) (registryHostId name : ℕ)
    (interface : Interface) (version : ℕ) : GlobalContext :=
  let registryGuestId := (c.shadowTable.getGuestId registryHostId).getD registryHostId
  c.sendGuest (.global registryGuestId name interface version)

/-- Hold an advertisement back until the host's formats are known. -/
def deferSyntheticDmabufGlobal (c : GlobalContext) (registryHostId name version generation : ℕ) :
    GlobalContext :=
  let pending : PendingDmabufGlobal :=
    { registryHostId, name, version, generation }
  let c := if c.pendingDmabufGlobals.contains pending then c
    else { c with pendingDmabufGlobals := c.pendingDmabufGlobals ++ [pending] }
  c.recordRegistryGlobalVisibility registryHostId name false

/-- The registry still lists the advertisement that was held back. -/
def pendingIsCurrent (c : GlobalContext) (pending : PendingDmabufGlobal) (generation : ℕ) : Bool :=
  decide (pending.name ∈ c.namesOf pending.registryHostId) &&
    c.generationOf pending.registryHostId pending.name == some generation &&
    !decide (pending.name ∈ c.removedOf pending.registryHostId) &&
    c.globalGenerations.get pending.name == some generation

def publishPendingDmabufGlobal (generation : ℕ) (c : GlobalContext)
    (pending : PendingDmabufGlobal) : GlobalContext :=
  if c.pendingIsCurrent pending generation then
    let c := { c with
      hostGlobals := c.hostGlobals.set pending.name
        { interface := .zwpLinuxDmabufV1, version := pending.version } }
    (c.queueSyntheticGlobalForRegistry pending.registryHostId pending.name .zwpLinuxDmabufV1
      pending.version).recordRegistryGlobalVisibility pending.registryHostId pending.name true
  else c

/-- The host sent all formats of a generation: advertise what waited for them. -/
def publishPendingDmabufGlobals (c : GlobalContext) (generation : ℕ) : GlobalContext :=
  let canPublish := c.hasSyntheticFeedbackFormats generation
  let matching := c.pendingDmabufGlobals.filter (·.generation == generation)
  let c := { c with
    pendingDmabufGlobals := c.pendingDmabufGlobals.filter (·.generation != generation) }
  if canPublish then matching.foldl (publishPendingDmabufGlobal generation) c else c

end GlobalContext
end Sommelier
