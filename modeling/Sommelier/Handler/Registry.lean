import Sommelier.Handler.ShmFormats

/-!
# Registry

The handlers of `wl_registry`. A global of the host is forwarded, replaced by one the proxy
offers instead, hidden, or held back until its formats are known; some are also bound by the
proxy for itself. `none` is the panic of an exhausted ID space.

## Main definitions

* `onGlobal`, `onGlobalRemove`: the events of a registry.
* `guestBindIsAllowed`, `onBind`: `wl_registry.bind`.
* `onDestroyRegistry`: `wl_fixes.destroy_registry`.
-/
namespace Sommelier

def linuxDmabufVersion : ℕ := 4
def linuxDmabufCapabilityVersion : ℕ := 3
def textInputManagerVersion : ℕ := 1
def textInputExtensionVersion : ℕ := 11
def wlCompositorVersion : ℕ := 4
def wlCompositorHostVersion : ℕ := 3
def xdgShellVersion : ℕ := 3
def linuxDmabufClientVersion : ℕ := 4

/-- The version of a global the proxy stands in for. -/
def advertisedGlobalVersion (interface : Interface) (hostVersion : ℕ) : ℕ :=
  if interface = .wlCompositor ∧ wlCompositorHostVersion ≤ hostVersion then wlCompositorVersion
  else
    min hostVersion <| match interface with
      | .wlCompositor => wlCompositorVersion
      | .wlOutput => 3
      | .wlSeat => 5
      | .wlDataDeviceManager => 3
      | .xdgWmBase => xdgShellVersion
      | .zwpLinuxDmabufV1 => linuxDmabufClientVersion
      | _ => hostVersion

def keyboardExtensionVersion (hostVersion : ℕ) : ℕ := min hostVersion 2

namespace Interface

/-- Interfaces of the core protocol. -/
def isWl : Interface → Bool
  | wlDisplay | wlRegistry | wlCallback | wlCompositor | wlShmPool | wlShm | wlBuffer
  | wlDataOffer | wlDataSource | wlDataDevice | wlDataDeviceManager | wlShell
  | wlShellSurface | wlSurface | wlSeat | wlPointer | wlKeyboard | wlTouch | wlOutput
  | wlRegion | wlSubcompositor | wlSubsurface | wlFixes => true
  | _ => false

def isXdg : Interface → Bool
  | xdgWmBase | xdgPositioner | xdgSurface | xdgToplevel | xdgPopup => true
  | _ => false

def isDmabuf : Interface → Bool
  | zwpLinuxDmabufV1 | zwpLinuxBufferParamsV1 | zwpLinuxDmabufFeedbackV1 => true
  | _ => false

def isViewporter : Interface → Bool
  | wpViewporter | wpViewport => true
  | _ => false

def isTextInput : Interface → Bool
  | zwpTextInputV3 | zwpTextInputManagerV3 => true
  | _ => false

def isGtk : Interface → Bool
  | gtkShell1 | gtkSurface1 => true
  | _ => false

def isXdgDecoration : Interface → Bool
  | zxdgDecorationManagerV1 | zxdgToplevelDecorationV1 => true
  | _ => false

def isFractionalScale : Interface → Bool
  | wpFractionalScaleManagerV1 | wpFractionalScaleV1 => true
  | _ => false

end Interface

namespace GlobalOptions

def shouldBindInternalDmabuf (o : GlobalOptions) : Bool :=
  o.gpuAccel || o.virtwaylandChannel.getD false

def canSynthesizeDmabufFeedback (o : GlobalOptions) (version : ℕ) : Bool :=
  !decide (version < linuxDmabufCapabilityVersion) && o.allocator

/-- The version of the dma-buf global for the guest. -/
def dmabufClientVersion (o : GlobalOptions) (version : ℕ) : ℕ :=
  if o.canSynthesizeDmabufFeedback version then linuxDmabufVersion
  else min version linuxDmabufCapabilityVersion

/-- Interfaces a guest may bind. -/
def interfaceIsSupported (o : GlobalOptions) (interface : Interface) : Bool :=
  interface.isWl || interface.isXdg || interface.isDmabuf || interface.isViewporter ||
    interface.isTextInput || interface.isGtk ||
    (interface.isXdgDecoration && o.xdgDecoration) || interface.isFractionalScale ||
    interface == .wlDataDeviceManager

/-- Interfaces that a registry forwards. -/
def isForwarded (o : GlobalOptions) (interface : Interface) : Bool :=
  interface.isWl || interface.isXdg || interface.isDmabuf || interface.isViewporter ||
    interface.isTextInput || (interface.isXdgDecoration && o.xdgDecoration) ||
    interface.isFractionalScale || interface == .wlDataDeviceManager

end GlobalOptions

namespace GlobalContext

/-! ## Internal bindings -/

/-- The request names a known interface, so it always encodes. -/
def queueInternalBind (c : GlobalContext) (registryHostId name : ℕ) (interface : Interface)
    (version hostId : ℕ) : GlobalContext :=
  c.sendHost (.bind registryHostId name interface version hostId)

/-- Reserve a host object for the proxy. -/
def allocateInternal (c : GlobalContext) (interface : Interface) (version : ℕ) :
    Option (ℕ × GlobalContext) := do
  let (hostId, shadowTable) ← c.shadowTable.allocateHostId
  let shadowTable := shadowTable.trackHostInterfaceWithVersion hostId interface version
  return (hostId, { c with shadowTable })

/-- Ask the host to tell when it has sent all formats of a generation. -/
def queueDmabufCapabilityBarrier (c : GlobalContext) (generation : ℕ) : Option GlobalContext := do
  let (callbackId, c) ← c.allocateInternal .wlCallback 1
  return { c with
    dmabufCapabilityCallbacks :=
      c.dmabufCapabilityCallbacks.set callbackId generation }.sendHost (.sync callbackId)

def queueGtkShellCapabilityBarrier (c : GlobalContext) (gtkShellId : ℕ) : Option GlobalContext := do
  let (callbackId, c) ← c.allocateInternal .wlCallback 1
  return { c with
    gtkShellCapabilityCallbacks :=
      c.gtkShellCapabilityCallbacks.set callbackId gtkShellId }.sendHost (.sync callbackId)

def internalBindingMatches (c : GlobalContext) (name : ℕ) : Bool :=
  c.hostDmabufGlobalName == some name || c.hostShmGlobalName == some name ||
    c.hostTextInputManagerV1GlobalName == some name ||
    c.hostTextInputExtensionV1GlobalName == some name ||
    c.hostKeyboardExtensionGlobalName == some name || c.hostZauraShellGlobalName == some name

/-- Destroy a host object of the proxy; its number waits for the acknowledgement. -/
def destroyInternal (c : GlobalContext) (hostId : ℕ) : GlobalContext :=
  let c := c.sendHost (.destroy hostId)
  { c with shadowTable := (c.shadowTable.markPendingDestroyHost hostId).2 }

/-- Forget a host object of the proxy that has no destructor. -/
def retireInternal (c : GlobalContext) (hostId : ℕ) : GlobalContext :=
  { c with shadowTable := c.shadowTable.retireHostInterface hostId }

def resetDmabufBinding (c : GlobalContext) (name : ℕ) : GlobalContext :=
  if c.hostDmabufGlobalName = some name then
    let generation := c.hostDmabufGeneration
    let hostId := c.hostDmabufId
    let c := { c with hostDmabufGeneration := none, hostDmabufId := none }
    let c := match hostId with
      | some hostId => c.destroyInternal hostId
      | none => c
    let c := { c with hostDmabufGlobalName := none }.clearHostShmDmabufFormats
    match generation with
    | some generation => c.maybeReclaimCapabilityGeneration generation
    | none => c
  else c

def resetShmBinding (c : GlobalContext) (name : ℕ) : GlobalContext :=
  if c.hostShmGlobalName = some name then
    let c := match c.hostShmId with
      | some hostId => { c with hostShmId := none }.retireInternal hostId
      | none => c
    { c with
      staleShmGuestObjects := c.staleShmGuestObjects ∪ (c.shmGuestFormats.keys).toFinset
      staleShmPools := c.staleShmPools ∪ (c.pools.keys).toFinset
      hostShmGlobalName := none }.clearHostShmWlFormats
  else c

/-- The managers of text input have no destructor, and their children live on. -/
def resetTextInputBindings (c : GlobalContext) (name : ℕ) : GlobalContext :=
  let c := if c.hostTextInputManagerV1GlobalName = some name then
      { c with hostTextInputManagerV1GlobalName := none }
    else c
  if c.hostTextInputExtensionV1GlobalName = some name then
    { c with hostTextInputExtensionV1GlobalName := none }
  else c

def resetKeyboardExtensionBinding (c : GlobalContext) (name : ℕ) : GlobalContext :=
  if c.hostKeyboardExtensionGlobalName = some name then
    let c := match c.hostKeyboardExtensionId with
      | some hostId => { c with hostKeyboardExtensionId := none }.retireInternal hostId
      | none => c
    { c with hostKeyboardExtensionGlobalName := none }
  else c

def resetZauraShellBinding (c : GlobalContext) (name : ℕ) : GlobalContext :=
  if c.hostZauraShellGlobalName = some name then
    let shellVersion := c.hostZauraShellVersion
    let shellId := c.hostZauraShellId
    let c := { c with
      hostZauraShellId := none
      hostZauraShellGlobalName := none
      hostZauraShellVersion := 0 }
    match shellId with
    | some hostId =>
      if 38 ≤ shellVersion then c.destroyInternal hostId else c.retireInternal hostId
    | none => c
  else c

/-- Drop what the proxy bound from a global that is gone. -/
def resetInternalBindingForGlobal (c : GlobalContext) (name : ℕ) : GlobalContext :=
  let c := c.resetDmabufBinding name
  let c := c.resetShmBinding name
  let c := c.resetTextInputBindings name
  let c := c.resetKeyboardExtensionBinding name
  let c := c.resetZauraShellBinding name
  { c with hiddenHostGlobals := c.hiddenHostGlobals.erase name }

def replaceGlobalMetadataForGeneration (c : GlobalContext) (name : ℕ) : GlobalContext :=
  { c with
    hostGlobals := c.hostGlobals.erase name
    hiddenHostGlobals := c.hiddenHostGlobals.erase name
    removedHostGlobals := c.removedHostGlobals.erase name }

/-! ## Advertisements -/

/-- Offer the guest a global in place of the host's. -/
def offerGlobal (c : GlobalContext) (registryId name : ℕ) (interface : Interface)
    (version : ℕ) : GlobalContext :=
  let c := { c with hostGlobals := c.hostGlobals.set name { interface, version } }
  (c.queueSyntheticGlobalForRegistry registryId name interface
    version).recordRegistryGlobalVisibility registryId name true

/-- Keep a global from the guest. -/
def hideGlobal (c : GlobalContext) (registryId name : ℕ) (interface : Interface) :
    GlobalContext :=
  { c with
    hiddenHostGlobals :=
      c.hiddenHostGlobals.set name interface }.recordRegistryGlobalVisibility registryId name false

/-- A registry lists the dma-buf global that the proxy already bound. -/
def onBoundDmabufGlobal (c : GlobalContext) (registryId name version : ℕ) : GlobalContext :=
  let generation := (c.globalGenerations.get name).getD 0
  let canSynthesizeFeedback := c.options.canSynthesizeDmabufFeedback version
  let clientVersion := c.options.dmabufClientVersion version
  if c.options.gpuAccel then
    let capabilityReady := (c.dmabufCapabilities.get generation).any (·.ready)
    if canSynthesizeFeedback && !capabilityReady then
      c.deferSyntheticDmabufGlobal registryId name clientVersion generation
    else if !canSynthesizeFeedback || c.hasSyntheticFeedbackFormats generation then
      c.offerGlobal registryId name .zwpLinuxDmabufV1 clientVersion
    else c.recordRegistryGlobalVisibility registryId name false
  else c.hideGlobal registryId name .zwpLinuxDmabufV1

/-- The proxy begins to collect the formats of a generation. -/
def rememberDmabuf (c : GlobalContext) (name hostId generation : ℕ) : GlobalContext :=
  { c with
    hostDmabufId := some hostId
    hostDmabufGlobalName := some name
    hostDmabufGeneration := some generation
    dmabufCapabilities := match c.dmabufCapabilities.get generation with
      | some _ => c.dmabufCapabilities
      | none => c.dmabufCapabilities.set generation .empty }

/-- The proxy binds the dma-buf global to learn the formats of the host. -/
def onDmabufGlobal (c : GlobalContext) (registryId name version : ℕ) : Option GlobalContext :=
  let generation := (c.globalGenerations.get name).getD 0
  if !c.options.shouldBindInternalDmabuf then
    some (c.recordRegistryGlobalVisibility registryId name false)
  else if c.hostDmabufId.isSome then some (c.onBoundDmabufGlobal registryId name version)
  else do
    let canSynthesizeFeedback := c.options.canSynthesizeDmabufFeedback version
    let clientVersion := c.options.dmabufClientVersion version
    let hostBindVersion := min clientVersion linuxDmabufCapabilityVersion
    let (hostId, c) ← c.allocateInternal .zwpLinuxDmabufV1 hostBindVersion
    let c := c.rememberDmabuf name hostId generation
    let c := if c.options.gpuAccel then
        if canSynthesizeFeedback then
          c.deferSyntheticDmabufGlobal registryId name clientVersion generation
        else c.offerGlobal registryId name .zwpLinuxDmabufV1 clientVersion
      else c.hideGlobal registryId name .zwpLinuxDmabufV1
    let c := c.queueInternalBind registryId name .zwpLinuxDmabufV1 hostBindVersion hostId
    if canSynthesizeFeedback then c.queueDmabufCapabilityBarrier generation else some c

def onTextInputManagerGlobal (c : GlobalContext) (registryId name version : ℕ) :
    Option GlobalContext :=
  if c.hostTextInputManagerV1Id.isSome then
    some (c.offerGlobal registryId name .zwpTextInputManagerV3 1)
  else do
    let boundVersion := min version textInputManagerVersion
    let (hostId, c) ← c.allocateInternal .zwpTextInputManagerV1 boundVersion
    let c := { c with
      hostTextInputManagerV1Id := some hostId
      hostTextInputManagerV1GlobalName := some name }
    let c := c.offerGlobal registryId name .zwpTextInputManagerV3 1
    return c.queueInternalBind registryId name .zwpTextInputManagerV1 boundVersion hostId

def onTextInputExtensionGlobal (c : GlobalContext) (registryId name version : ℕ) :
    Option GlobalContext :=
  let c := c.hideGlobal registryId name .zcrTextInputExtensionV1
  if c.hostTextInputExtensionV1Id.isSome then some c
  else do
    let boundVersion := min version textInputExtensionVersion
    let (hostId, c) ← c.allocateInternal .zcrTextInputExtensionV1 boundVersion
    let c := { c with
      hostTextInputExtensionV1Id := some hostId
      hostTextInputExtensionV1GlobalName := some name }
    return c.queueInternalBind registryId name .zcrTextInputExtensionV1 boundVersion hostId

def onKeyboardExtensionGlobal (c : GlobalContext) (registryId name version : ℕ) :
    Option GlobalContext :=
  let c := c.hideGlobal registryId name .zcrKeyboardExtensionV1
  if c.hostKeyboardExtensionId.isSome then some c
  else do
    let boundVersion := keyboardExtensionVersion version
    let (hostId, c) ← c.allocateInternal .zcrKeyboardExtensionV1 boundVersion
    let c := { c with
      hostKeyboardExtensionId := some hostId
      hostKeyboardExtensionGlobalName := some name }
    return c.queueInternalBind registryId name .zcrKeyboardExtensionV1 boundVersion hostId

/-- The guest sees the shell of the host as a GTK shell. -/
def onZauraShellGlobal (c : GlobalContext) (registryId name version : ℕ) : Option GlobalContext :=
  if c.hostZauraShellId.isSome then some (c.offerGlobal registryId name .gtkShell1 1)
  else do
    let boundVersion := min version 38
    let (hostId, c) ← c.allocateInternal .zauraShell boundVersion
    let c := { c with
      hostZauraShellId := some hostId
      hostZauraShellGlobalName := some name
      hostZauraShellVersion := boundVersion }
    let c := c.offerGlobal registryId name .gtkShell1 1
    return c.queueInternalBind registryId name .zauraShell boundVersion hostId

def onShmGlobal (c : GlobalContext) (registryId name : ℕ) : Option GlobalContext :=
  if c.hostShmId.isSome then some (c.offerGlobal registryId name .wlShm 1)
  else do
    let (hostId, c) ← c.allocateInternal .wlShm 1
    let c := { c with hostShmId := some hostId, hostShmGlobalName := some name }
    let c := c.queueInternalBind registryId name .wlShm 1 hostId
    return c.offerGlobal registryId name .wlShm 1

/-- A global without special treatment. -/
def onOtherGlobal (c : GlobalContext) (registryId name : ℕ) (interface : Interface)
    (version : ℕ) : Action × GlobalContext :=
  if !c.options.isForwarded interface then
    (.drop, c.recordRegistryGlobalVisibility registryId name false)
  else
    let advertisedVersion := advertisedGlobalVersion interface version
    if advertisedVersion ≠ version then
      (.drop, c.offerGlobal registryId name interface advertisedVersion)
    else
      let c := { c with hostGlobals := c.hostGlobals.set name { interface, version } }
      (.forward, c.recordRegistryGlobalVisibility registryId name true)

/-- Treat an advertisement that was recorded. -/
def classifyGlobal (c : GlobalContext) (registryId name : ℕ) (interface : Interface)
    (version : ℕ) : Option (Action × GlobalContext) :=
  if interface = .zauraShell ∧ version < 6 then
    some (.drop, c.recordRegistryGlobalVisibility registryId name false)
  else
    match interface with
    | .zwpLinuxDmabufV1 => (c.onDmabufGlobal registryId name version).map (.drop, ·)
    | .zwpTextInputManagerV1 => (c.onTextInputManagerGlobal registryId name version).map (.drop, ·)
    | .zcrTextInputExtensionV1 =>
      (c.onTextInputExtensionGlobal registryId name version).map (.drop, ·)
    | .zcrKeyboardExtensionV1 =>
      (c.onKeyboardExtensionGlobal registryId name version).map (.drop, ·)
    | .zauraShell => (c.onZauraShellGlobal registryId name version).map (.drop, ·)
    | .wlShm => (c.onShmGlobal registryId name).map (.drop, ·)
    | _ => some (c.onOtherGlobal registryId name interface version)

/-- Drop what is left of the generation before the one a registry begins. -/
def replaceGeneration (c : GlobalContext) (before : GlobalContext) (registryId name : ℕ) :
    GlobalContext :=
  let previous := before.globalGenerations.get name
  let generationChanged := previous.isSome && c.globalGenerations.get name != previous
  let startsNewGeneration := generationChanged &&
    decide (name ∈ before.removedOf registryId) && before.generationOf registryId name == previous
  let c := if startsNewGeneration && c.internalBindingMatches name then
      c.resetInternalBindingForGlobal name
    else c
  if generationChanged then c.replaceGlobalMetadataForGeneration name else c

/-- The name is advertised again. -/
def clearTombstone (c : GlobalContext) (name : ℕ) : GlobalContext :=
  { c with removedHostGlobals := c.removedHostGlobals.erase name }

def onGlobal (c : GlobalContext) (registryId name : ℕ) (interface : Interface) (version : ℕ) :
    Option (Action × GlobalContext) :=
  if version = 0 then some (.drop, c)
  else
    let (noted, noting) := c.noteRegistryGlobal registryId name
    if !noted then some (.drop, c)
    else
      ((noting.replaceGeneration c registryId name).clearTombstone name).classifyGlobal registryId
        name interface version

/-! ## Removals -/

/-- Take a name off what a registry lists. -/
def unlistGlobal (c : GlobalContext) (registryId name : ℕ) : GlobalContext :=
  let removedGeneration := c.generationOf registryId name
  let c := { c with
    registryGlobalNames := c.registryGlobalNames.modify registryId (·.erase name)
    pendingDmabufGlobals := c.pendingDmabufGlobals.filter fun pending =>
      !(pending.registryHostId == registryId && pending.name == name &&
        some pending.generation == removedGeneration) }
  let c := match removedGeneration with
    | some generation => c.maybeReclaimCapabilityGeneration generation
    | none => c
  { c with
    registryGlobalVisibility := c.registryGlobalVisibility.modify registryId (Table.erase · name)
    registryGlobalRemoved :=
      c.registryGlobalRemoved.set registryId (insert name (c.removedOf registryId)) }

/-- Nothing lists the current generation of a name any more. -/
def dropGlobal (c : GlobalContext) (name : ℕ) : GlobalContext :=
  let c := c.resetInternalBindingForGlobal name
  if (c.hiddenHostGlobals.get name).isSome || (c.hostGlobals.get name).isSome then
    { c with
      removedHostGlobals := insert name c.removedHostGlobals
      hiddenHostGlobals := c.hiddenHostGlobals.erase name
      hostGlobals := c.hostGlobals.erase name }
  else c

def onGlobalRemove (c : GlobalContext) (registryId name : ℕ) : Action × GlobalContext :=
  let removedGeneration := c.generationOf registryId name
  let wasVisible := (c.visibilityOf registryId name).getD (c.hostGlobals.get name).isSome
  if name ∉ c.namesOf registryId then (.drop, c)
  else
    let next := c.unlistGlobal registryId name
    let lastRemoval :=
      removedGeneration == next.globalGenerations.get name && !next.stillSeen name
    (if wasVisible then .forward else .drop, if lastRemoval then next.dropGlobal name else next)

/-! ## Requests -/

/-- The registry lists the name at its current generation, or was told nothing yet. -/
def registryListsGlobal (c : GlobalContext) (registryHostId name : ℕ) : Bool :=
  (c.registryGlobalNames.get registryHostId).all fun names =>
    decide (name ∈ names) && c.generationOf registryHostId name == c.globalGenerations.get name

def guestBindIsAllowed (c : GlobalContext) (registryGuestId name : ℕ) (interface : Interface)
    (requestedVersion : ℕ) : Bool :=
  c.options.interfaceIsSupported interface &&
    match c.hostGlobals.get name with
    | none => false
    | some global =>
      !decide (name ∈ c.removedHostGlobals) &&
        c.registryListsGlobal ((c.shadowTable.getHostId registryGuestId).getD registryGuestId)
          name &&
        global.interface == interface && decide (0 < requestedVersion) &&
        decide (requestedVersion ≤ global.version)

/-- The version of the host object behind a binding of the guest. -/
def hostBindVersion (interface : Interface) (version : ℕ) : ℕ :=
  match interface with
  | .zwpLinuxDmabufV1 => min version linuxDmabufCapabilityVersion
  | .wlCompositor => min version wlCompositorHostVersion
  | _ => version

/-- Bind a global on the host for the guest. -/
def bindOnHost (c : GlobalContext) (registryGuestId name : ℕ) (interface : Interface)
    (version guestNewId : ℕ) : Option GlobalContext := do
  let (hostNewId, shadowTable) ← c.shadowTable.allocateHostId
  let shadowTable := (shadowTable.mapId guestNewId hostNewId).trackInterfaceWithVersion guestNewId
    interface version
  let hostVersion := hostBindVersion interface version
  let shadowTable := shadowTable.setHostVersion hostNewId hostVersion
  match shadowTable.getHostId registryGuestId with
  | none => return { c with shadowTable := shadowTable.removeId guestNewId }
  | some registryHostId =>
    let c := { c with shadowTable }.queueInternalBind registryHostId name interface hostVersion
      hostNewId
    if interface = .zwpLinuxDmabufV1 then
      let generation := ((c.generationOf registryHostId name).or
        (c.globalGenerations.get name)).getD 0
      return { c with
        dmabufGuestGenerations := c.dmabufGuestGenerations.set guestNewId generation }
    else return c

def onBind (c : GlobalContext) (registryGuestId name : ℕ) (interface : Interface)
    (version guestNewId : ℕ) : Option (Action × GlobalContext) :=
  let tracked := { c with
    shadowTable := c.shadowTable.trackInterfaceWithVersion guestNewId interface version }
  if !c.guestBindIsAllowed registryGuestId name interface version then
    some (.drop, c.queueProtocolError)
  else
    match interface with
    | .wlShm => some (.drop, tracked.registerGuestShm guestNewId)
    | .zwpTextInputManagerV3 => some (.drop, tracked)
    | .gtkShell1 =>
      ({ tracked with gtkShells := insert guestNewId c.gtkShells }.queueGtkShellCapabilityBarrier
        guestNewId).map (.drop, ·)
    | _ => (c.bindOnHost registryGuestId name interface version guestNewId).map (.drop, ·)

def onGetRegistry (c : GlobalContext) (registry : ℕ) : Option (Action × GlobalContext) := do
  let (hostRegistryId, shadowTable) ← c.shadowTable.allocateHostId
  let shadowTable := (shadowTable.mapId registry hostRegistryId).trackInterface registry .wlRegistry
  return (.drop, { c with shadowTable }.sendHost (.getRegistry hostRegistryId))

/-- `wl_fixes.destroy_registry` destroys its argument. -/
def onDestroyRegistry (c : GlobalContext) (registry : ℕ) : Action × GlobalContext :=
  let registryHostId := (c.shadowTable.getHostId registry).getD registry
  let generations := ((c.registryGlobalGenerations.get registryHostId).map
    fun generations => generations.entries.map (·.2)).getD []
  let c := { c with
    registryGlobalGenerations := c.registryGlobalGenerations.erase registryHostId
    registryGlobalNames := c.registryGlobalNames.erase registryHostId
    registryGlobalRemoved := c.registryGlobalRemoved.erase registryHostId
    registryGlobalVisibility := c.registryGlobalVisibility.erase registryHostId
    pendingDmabufGlobals := c.pendingDmabufGlobals.filter (·.registryHostId != registryHostId) }
  let c := generations.foldl maybeReclaimCapabilityGeneration c
  (.forward, { c with shadowTable := c.shadowTable.markPendingDestroy registry })

end GlobalContext
end Sommelier
