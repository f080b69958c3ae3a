import Sommelier.Ids.Context

/-!
# Registry, display and callbacks

The handlers that bind globals: for the guest, on the host or as an emulation, and for the
proxy itself. Callbacks end the barriers of the proxy and the syncs of the guest.

## Main definitions

* `IdContext.onGetRegistry`, `IdContext.onSync`, `IdContext.onBind`: the guest's requests.
* `IdContext.onGlobal`, `IdContext.resetInternalBindingForGlobal`: the proxy's own bindings.
* `IdContext.onDone`: the end of a callback.
-/
namespace Sommelier.IdContext

/-! ## Barriers -/

/-- A callback of the proxy: a `sync` is queued. -/
def queueCapabilityBarrier (c : IdContext) : Option (ℕ × IdContext) := c.bindInternal .wlCallback 1

def queueDmabufCapabilityBarrier (c : IdContext) (generation : ℕ) : Option IdContext :=
  c.queueCapabilityBarrier.map fun (callback, c) =>
    { c with dmabufCapabilityCallbacks := c.dmabufCapabilityCallbacks.set callback generation }

def queueGtkShellCapabilityBarrier (c : IdContext) (gtkShell : ℕ) : Option IdContext :=
  c.queueCapabilityBarrier.map fun (callback, c) =>
    { c with gtkShellCapabilityCallbacks := c.gtkShellCapabilityCallbacks.set callback gtkShell }

/-! ## Requests -/

/-- The registration of an object whose version is not recorded. -/
def registerUntracked (guestId : ℕ) (interface : Interface) (_hostId : ℕ) (t : ShadowTable) :
    ShadowTable := t.trackInterface guestId interface

/-- The registration of an object with the versions of both sides. -/
def registerVersions (guestId : ℕ) (interface : Interface) (version hostVersion : ℕ)
    (hostId : ℕ) (t : ShadowTable) : ShadowTable :=
  (t.trackInterfaceWithVersion guestId interface version).setHostVersion hostId hostVersion

/-- The object of a request whose handler queues the request itself. -/
def pairQueued (c : IdContext) (guestId : ℕ) (register : ℕ → ShadowTable → ShadowTable) :
    Option IdContext :=
  (c.toIdState.pairQueued guestId register).map fun s => { c with toIdState := s }

def onGetRegistry (c : IdContext) (registry : ℕ) : Option IdContext :=
  c.pairQueued registry (registerUntracked registry .wlRegistry)

def onSync (c : IdContext) (callback : ℕ) : Option IdContext :=
  c.pairQueued callback (registerUntracked callback .wlCallback)

/-- An object that only the proxy knows. -/
def trackLocal (c : IdContext) (guestId : ℕ) (interface : Interface) (version : ℕ) : IdContext :=
  c.onIds (·.onTable (·.trackInterfaceWithVersion guestId interface version))

/-- The version of the host object behind a binding of the guest. -/
def bindVersion (interface : Interface) (version : ℕ) : ℕ :=
  match interface with
  | .zwpLinuxDmabufV1 => min version 3
  | .wlCompositor => min version 3
  | _ => version

/-- Bind a global on the host; nothing is sent for a registry the host does not know. -/
def bindOnHost (c : IdContext) (registry newId : ℕ) (interface : Interface)
    (version generation : ℕ) : Option IdContext :=
  match c.shadowTable.getHostId registry with
  | none => c.toIdState.allocateHostId.map fun (hostId, s) =>
      { c with toIdState := s.onTable fun t => (registerVersions newId interface version
        (bindVersion interface version) hostId (t.mapId newId hostId)).removeId newId }
  | some _ =>
    (c.pairQueued newId (registerVersions newId interface version
      (bindVersion interface version))).map fun c =>
      if interface = .zwpLinuxDmabufV1 then
        { c with dmabufGuestGenerations := c.dmabufGuestGenerations.set newId generation }
      else c

/-- A bind of an advertised global. -/
def onBind (c : IdContext) (registry newId : ℕ) (interface : Interface)
    (version generation : ℕ) : Option IdContext :=
  match interface with
  | .wlShm =>
    -- The formats known so far are sent at once.
    some ({ c.trackLocal newId interface version with
      shmGuests := newId :: c.shmGuests }.onIds (·.emit newId []))
  | .zwpTextInputManagerV3 => some (c.trackLocal newId interface version)
  | .gtkShell1 =>
    { c.trackLocal newId interface version with
      gtkShells := insert newId c.gtkShells }.queueGtkShellCapabilityBarrier newId
  | _ => c.bindOnHost registry newId interface version generation

/-- `wl_fixes.destroy_registry`: the host acknowledges the registry it destroys. -/
def onDestroyRegistry (c : IdContext) (registry : ℕ) : IdContext :=
  let registryHostId := (c.shadowTable.getHostId registry).getD registry
  { c with
    pendingDmabufGlobals := c.pendingDmabufGlobals.filter
      (·.registryHostId != registryHostId) }.onIds fun s =>
    (s.onTable (·.markPendingDestroy registry)).logHost (.destroy registryHostId)

/-! ## Globals of the host -/

/-- The binding of the proxy has a destructor. -/
def hasDestructor (c : IdContext) : InternalGlobal → Bool
  | .dmabuf => true
  | .zauraShell => decide (38 ≤ c.hostZauraShellVersion)
  | _ => false

/-- Give up the binding of a removed global: destroyed if that is possible, else its ID stays
reserved. -/
def releaseInternal (c : IdContext) (g : InternalGlobal) : IdContext :=
  match c.hostIds.get g with
  | none => c
  | some hostId =>
    { c with hostIds := c.hostIds.erase g }.onIds fun s =>
      if c.hasDestructor g then s.destroyInternal hostId else s.retireInternal hostId

/-- The part of `reset_internal_binding_for_global` for one global. -/
def resetInternalBinding (name : ℕ) (c : IdContext) (g : InternalGlobal) : IdContext :=
  if c.globalNames.get g = some name then
    let c := if g.outlivesGlobal then c else c.releaseInternal g
    { c with
      globalNames := c.globalNames.erase g
      hostZauraShellVersion := if g = .zauraShell then 0 else c.hostZauraShellVersion
      hostDmabufGeneration := if g = .dmabuf then none else c.hostDmabufGeneration }
  else c

def resetInternalBindingForGlobal (c : IdContext) (name : ℕ) : IdContext :=
  InternalGlobal.all.foldl (resetInternalBinding name) c

/-- What `on_global` makes of an advertisement: whether it is usable at all, whether it
replaces a removed one, whether the proxy can make up feedback for it, and whether the guest
hears of it now or when the capabilities are known. -/
structure Advertised where
  usable : Bool
  replaces : Bool
  feedback : Bool
  shown : Bool
  deferred : Bool
  generation : ℕ
  deriving DecidableEq, Repr

/-- Tell the guest of a global, or remember to do so. -/
def showGlobal (c : IdContext) (registry name : ℕ) (ad : Advertised) : IdContext :=
  if ad.deferred then
    { c with
      pendingDmabufGlobals :=
        c.pendingDmabufGlobals ++ [⟨registry, name, ad.generation⟩] }
  else if ad.shown then c.forwardEvent registry []
  else c

/-- Bind a global for the proxy itself. -/
def bindInternalGlobal (c : IdContext) (registry name : ℕ) (g : InternalGlobal) (version : ℕ)
    (ad : Advertised) : Option IdContext :=
  if (c.hostIds.get g).isSome then some (c.showGlobal registry name ad)
  else do
    let (hostId, c) ← c.bindInternal g.interface (g.boundVersion version)
    let c := { c with
      hostIds := c.hostIds.set g hostId
      globalNames := c.globalNames.set g name
      hostZauraShellVersion :=
        if g = InternalGlobal.zauraShell then g.boundVersion version else c.hostZauraShellVersion
      hostDmabufGeneration :=
        if g = InternalGlobal.dmabuf then some ad.generation
        else c.hostDmabufGeneration }.showGlobal registry name ad
    if g = .dmabuf && ad.feedback then c.queueDmabufCapabilityBarrier ad.generation else return c

def onGlobal (c : IdContext) (registry name : ℕ) (interface : Interface) (version : ℕ)
    (ad : Advertised) : Option IdContext :=
  let c := if ad.replaces then c.resetInternalBindingForGlobal name else c
  if !ad.usable then some c
  else
    match InternalGlobal.ofInterface interface with
    | some g => c.bindInternalGlobal registry name g version ad
    | none => some (c.showGlobal registry name { ad with deferred := false })

/-- `global_remove`; the proxy's binding goes with the last registry that saw the global. -/
def onGlobalRemove (c : IdContext) (registry name : ℕ) (generation : Option ℕ)
    (last visible : Bool) : IdContext :=
  let c := { c with
    pendingDmabufGlobals := c.pendingDmabufGlobals.filter fun pending =>
      !(pending.registryHostId == registry && pending.name == name &&
        some pending.generation == generation) }
  let c := if last then c.resetInternalBindingForGlobal name else c
  if visible then c.forwardEvent registry [] else c

/-! ## Callbacks -/

/-- Feedback for the objects of a generation. -/
def sendFeedback (c : IdContext) (generation : ℕ) : IdContext :=
  (c.syntheticFeedbackObjects.keysWhere fun _ objectGeneration =>
    objectGeneration == generation).foldl
      (fun c guestId => c.onIds (·.emit guestId [])) c

/-- A waiting global is shown under the guest's ID of its registry. -/
def publishDmabufGlobal (c : IdContext) (pending : DeferredGlobal) : IdContext :=
  c.onIds (·.emit ((c.shadowTable.getGuestId pending.registryHostId).getD
    pending.registryHostId) [])

/-- The capabilities of a generation are known: the globals that are `current` are shown. -/
def completeCapabilityDiscovery (c : IdContext) (generation : ℕ) (current : List DeferredGlobal) :
    IdContext :=
  if generation ∈ c.readyGenerations then c
  else
    let matching := c.pendingDmabufGlobals.filter (·.generation == generation)
    let c := { c with
      readyGenerations := insert generation c.readyGenerations
      pendingDmabufGlobals := c.pendingDmabufGlobals.filter (·.generation != generation) }
    ((matching.filter (· ∈ current)).foldl publishDmabufGlobal c).sendFeedback generation

/-- The callback of the proxy is gone on the host. -/
def dropCallback (c : IdContext) (callback : ℕ) : IdContext :=
  c.onIds (·.destroyInternal callback)

/-- `wl_callback.done`, when it ends no activation barrier. -/
def onDone (c : IdContext) (callback : ℕ) (current : List DeferredGlobal) : IdContext :=
  match c.dmabufCapabilityCallbacks.get callback with
  | some generation =>
    ({ c with
      dmabufCapabilityCallbacks := c.dmabufCapabilityCallbacks.erase callback }.dropCallback
        callback).completeCapabilityDiscovery generation current
  | none =>
    match c.gtkShellCapabilityCallbacks.get callback with
    | some gtkShell =>
      let c := { c with
        gtkShellCapabilityCallbacks :=
          c.gtkShellCapabilityCallbacks.erase callback }.dropCallback callback
      if gtkShell ∈ c.gtkShells && c.shadowTable.isLocalOnlyGuestObject gtkShell then
        c.onIds (·.emit gtkShell [])
      else c
    | none =>
      match c.shadowTable.getGuestId callback with
      | some guestId => c.onIds (·.completeCallback guestId callback)
      | none => c

end Sommelier.IdContext
