import Sommelier.Handler.Shm

/-!
# dma-buf parameters

Guest dma-bufs are collected plane by plane in a parameters object, which then creates a
buffer at once, or asks the host for one that a later event announces. Parameters that are
destroyed before that event leave an orphan: the announced buffer is destroyed on arrival.

## Main definitions

* `validParams`: the planes of a creation are complete and large enough.
* `onCreate`, `onCreateImmed`: the creating requests.
* `onCreated`, `onFailed`, `paramsOnDestroy`: the answers of the host, and the orphans.
-/
namespace Sommelier

/-- Bytes of a row and number of rows of a plane. -/
def dmabufPlaneLayout (format planeIdx : ℕ) (width height : ℤ) : Option (ℕ × ℕ) :=
  if width < 0 ∨ height < 0 then none
  else
    let width := width.toNat
    let height := height.toNat
    if format = wlShmFormatNv12 then
      if width % 2 = 0 ∧ height % 2 = 0 ∧ planeIdx < 2 then
        some (width, if planeIdx = 0 then height else height / 2)
      else none
    else if format = 0x36314752 then if planeIdx = 0 then some (width * 2, height) else none
    else if format = 0x34325258 ∨ format = 0x34325241 ∨ format = 0x34324258 ∨
        format = 0x34324241 then
      if planeIdx = 0 then some (width * 4, height) else none
    else none

def validDmabufPlane (param : PendingParam) (format : ℕ) (width height : ℤ) : Bool :=
  match dmabufPlaneLayout format param.planeIdx width height with
  | none => false
  | some (minimumRowBytes, rows) =>
    decide (minimumRowBytes ≤ param.stride) &&
      decide (param.offset + param.stride * (rows - 1) + minimumRowBytes < 2 ^ 64)

def validParams (c : Context) (paramsId : ℕ) (width height : ℤ) (format : ℕ) : Bool :=
  if width ≤ 0 ∨ height ≤ 0 ∨ isSupportedDrmFormat format = false then false
  else
    match c.pendingParams.get paramsId with
    | none => false
    | some params =>
      let expectedPlanes := if format = wlShmFormatNv12 then 2 else 1
      decide (params.length = expectedPlanes) &&
        decide (params.map (·.planeIdx)).Nodup &&
        params.all fun param =>
          decide (param.planeIdx < expectedPlanes) && validDmabufPlane param format width height

/-! ## Requests -/

def onCreateParams (c : Context) (paramsId : ℕ) : Action × Context :=
  (.forward, { c with
    usedDmabufParams := c.usedDmabufParams.erase paramsId
    pendingParams := c.pendingParams.set paramsId [] })

/-- Collect a plane; `duplicated` is whether its descriptor could be duplicated. -/
def onAdd (c : Context) (paramsId : ℕ) (param : PendingParam) (duplicated : Bool) :
    Action × Context :=
  if paramsId ∈ c.usedDmabufParams then (.drop, c.queueProtocolError)
  else if 1 < param.planeIdx then (.drop, c.queueProtocolError)
  else if (c.pendingParams.get paramsId).any (·.any (·.planeIdx == param.planeIdx)) then
    (.drop, c.queueProtocolError)
  else if !duplicated then (.drop, c)
  else (.drop, { c with pendingParams := c.pendingParams.modify paramsId (· ++ [param]) })

def discardPendingParams (c : Context) (paramsId : ℕ) : Context :=
  { c with pendingParams := c.pendingParams.erase paramsId }

/-- Send the planes; the result is the host ID of the parameters. `duplicated` is whether
their descriptors could be duplicated for synchronization. -/
def processParams (c : Context) (paramsId : ℕ) (duplicated : Bool) : Option ℕ × Context :=
  match c.pendingParams.get paramsId with
  | none => (none, c)
  | some params =>
    let c := discardPendingParams c paramsId
    match c.shadowTable.getHostId paramsId with
    | none => (none, { c with fatalProtocolError := true })
    | some hostId =>
      if !duplicated || params.isEmpty then (none, { c with fatalProtocolError := true })
      else (some hostId, { c with usedDmabufParams := insert paramsId c.usedDmabufParams })

def onCreate (c : Context) (paramsId : ℕ) (width height : ℤ) (format : ℕ)
    (duplicated : Bool) : Action × Context :=
  if paramsId ∈ c.usedDmabufParams then (.drop, c.queueProtocolError)
  else if !validParams c paramsId width height format then
    (.drop, discardPendingParams c.queueProtocolError paramsId)
  else
    match processParams c paramsId duplicated with
    | (none, c) => (.drop, c)
    | (some hostParamsId, c) =>
      match c.pendingNativeCreates.get hostParamsId with
      | some _ => (.drop, { c with fatalProtocolError := true })
      | none =>
        (.drop, { c with
          pendingNativeCreates := c.pendingNativeCreates.set hostParamsId
            { guestParamsId := paramsId, dimensions := (width, height) } })

/-- `none` is the panic of an exhausted ID space. -/
def onCreateImmed (c : Context) (paramsId bufferId : ℕ) (width height : ℤ) (format : ℕ)
    (duplicated : Bool) : Option (Action × Context) :=
  if paramsId ∈ c.usedDmabufParams then some (.drop, c.queueProtocolError)
  else if (c.pendingParams.get paramsId).isNone then some (.drop, c)
  else if (c.shadowTable.getHostId paramsId).isNone then
    some (.drop, (processParams c paramsId duplicated).2)
  else if !validParams c paramsId width height format then
    some (.drop, discardPendingParams c.queueProtocolError paramsId)
  else do
    let (hostBufferId, shadowTable) ← c.shadowTable.allocateHostId
    let bufferVersion := (shadowTable.guestObjectVersion paramsId).getD unknownObjectVersion
    let c := { c with
      shadowTable := shadowTable.registerObject bufferId hostBufferId .wlBuffer bufferVersion
        bufferVersion }
    match processParams c paramsId duplicated with
    | (none, c) => some (.drop, { c with shadowTable := c.shadowTable.removeId bufferId })
    | (some _, c) =>
      let c := c.queue (.create hostBufferId)
      let (registered, renderBuffers) :=
        c.renderBuffers.registerNative hostBufferId (width, height)
      some (.drop, { c with
        renderBuffers, fatalProtocolError := c.fatalProtocolError || !registered })

def paramsOnDestroy (c : Context) (paramsId : ℕ) : Action × Context :=
  let c := { c with usedDmabufParams := c.usedDmabufParams.erase paramsId }
  let c := match c.shadowTable.getHostId paramsId with
    | none => c
    | some hostId =>
      match c.pendingNativeCreates.get hostId with
      | none => c
      | some _ =>
        { c with
          pendingNativeCreates := c.pendingNativeCreates.erase hostId
          orphanedDmabufParams := c.orphanedDmabufParams.set hostId paramsId }
  (.forward, { c with pendingParams := c.pendingParams.erase paramsId })

/-! ## Answers of the host -/

/-- Forget that the parameters wait for an answer. -/
def forgetParams (c : Context) (hostParamsId : ℕ) : Context :=
  { c with
    orphanedDmabufParams := c.orphanedDmabufParams.erase hostParamsId
    pendingNativeCreates := c.pendingNativeCreates.erase hostParamsId }

/-- Register a buffer nobody asked for any more as a host-only object and destroy it. -/
def destroyOrphanedBuffer (c : Context) (hostParamsId buffer : ℕ) : Context :=
  let version := (c.shadowTable.hostObjectVersion hostParamsId).getD unknownObjectVersion
  let c := { c with
    shadowTable := c.shadowTable.trackHostInterfaceWithVersion buffer .wlBuffer version }
  let c := queueHostBufferDestroy (c.queue (.announce buffer)) buffer
  { c with shadowTable := (c.shadowTable.markPendingDestroyHost buffer).2 }

/-- Parameters whose destructor was acknowledged stayed only for this last event. -/
def releaseOrphanedParams (c : Context) (hostParamsId : ℕ) : Context :=
  if (c.shadowTable.getGuestId hostParamsId).isNone then
    { c with shadowTable := c.shadowTable.removeHostInterface hostParamsId }
  else c

def onCreated (c : Context) (hostParamsId buffer : ℕ) : Action × Context :=
  if (c.orphanedDmabufParams.get hostParamsId).isSome then
    if !c.shadowTable.isHostIdAvailable buffer then (.drop, { c with fatalProtocolError := true })
    else
      let c := forgetParams (destroyOrphanedBuffer c hostParamsId buffer) hostParamsId
      (.drop, releaseOrphanedParams c hostParamsId)
  else
    match c.shadowTable.getGuestId hostParamsId with
    | none => (.forward, c)
    | some guestParamsId =>
      if c.shadowTable.isPendingDestroyGuest guestParamsId then
        if !c.shadowTable.isHostIdAvailable buffer then
          (.drop, { c with fatalProtocolError := true })
        else (.drop, forgetParams (destroyOrphanedBuffer c hostParamsId buffer) hostParamsId)
      else
        match c.pendingNativeCreates.get hostParamsId with
        | none => (.forward, c)
        | some pending =>
          let c := { c with
            pendingNativeCreates := c.pendingNativeCreates.erase hostParamsId }
          if pending.guestParamsId ≠ guestParamsId then
            (.drop, { c with fatalProtocolError := true })
          else
            let (registered, renderBuffers) :=
              c.renderBuffers.registerNative buffer pending.dimensions
            (.forward, { c with
              renderBuffers, fatalProtocolError := c.fatalProtocolError || !registered })

def onFailed (c : Context) (hostParamsId : ℕ) : Action × Context :=
  if (c.orphanedDmabufParams.get hostParamsId).isSome then
    (.drop, releaseOrphanedParams (forgetParams c hostParamsId) hostParamsId)
  else
    match c.shadowTable.getGuestId hostParamsId with
    | none => (.forward, c)
    | some guestParamsId =>
      if c.shadowTable.isPendingDestroyGuest guestParamsId then
        (.drop, forgetParams c hostParamsId)
      else
        match c.pendingNativeCreates.get hostParamsId with
        | none => (.forward, c)
        | some pending =>
          let c := { c with
            pendingNativeCreates := c.pendingNativeCreates.erase hostParamsId }
          if pending.guestParamsId ≠ guestParamsId then
            (.drop, { c with fatalProtocolError := true })
          else (.forward, c)

end Sommelier
