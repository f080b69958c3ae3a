import Sommelier.Handler.LinuxDmabuf

/-!
# Descriptors and requests of dma-buf parameters

The handlers of dma-buf parameters with the descriptors they own and the requests they send. Each
plane is added with a duplicate of the guest's descriptor. A creation hands the duplicates to the
host and keeps further ones, by which the proxy waits for the guest's rendering.

A descriptor is numbered by its duplication, so that no number is used again.

## Main definitions

* `ParamsRequest`: what the host is told about parameters.
* `DmabufSession`: the session context with the descriptors the proxy made.
* `paramsErrorCode`: the reason the guest is given for rejected parameters.
* `DmabufSession.onAdd`, `DmabufSession.onCreate`, `DmabufSession.onCreateImmed`,
  `DmabufSession.onDestroy`, `DmabufSession.onCreated`, `DmabufSession.onFailed`: the handlers.

Each handler refines the one of the same name that knows no descriptors.
-/
namespace Sommelier

/-- A request about the parameters of a host ID. An `add` carries a descriptor. -/
inductive ParamsRequest
  | createParams (hostId : ℕ)
  | add (hostId : ℕ) (param : PendingParam) (fd : ℕ)
  | create (hostId : ℕ) (width height : ℤ) (format flags : ℕ)
  | createImmed (hostId buffer : ℕ) (width height : ℤ) (format flags : ℕ)
  | destroy (hostId : ℕ)
  deriving DecidableEq, Repr

/-- The session with the descriptors the proxy duplicated. Those of the planes are in the order of
the planes; the requests are newest first. -/
structure DmabufSession where
  context : Context
  /-- of the planes in `pendingParams` -/
  paramFds : Table ℕ (List ℕ)
  /-- `sync_fds` of a creation the host has not answered -/
  createFds : Table ℕ (List ℕ)
  /-- `sync_fds` of a native buffer -/
  bufferFds : Table ℕ (List ℕ)
  requests : List ParamsRequest
  /-- in the requests that are not sent yet -/
  queued : List ℕ
  sent : List ℕ
  closed : List ℕ
  nextFd : ℕ
  /-- the objects and codes of protocol errors -/
  errors : List (ℕ × ℕ)

/-! ## Checks -/

/-- The reason found in the planes, in order; `seen` are the indices of those before. -/
def planesErrorCode (expectedPlanes : ℕ) (width height : ℤ) (format : ℕ) :
    List ℕ → List PendingParam → ℕ
  | _, [] => 3
  | seen, param :: params =>
    if expectedPlanes ≤ param.planeIdx then 1
    else if param.planeIdx ∈ seen then 2
    else if !validDmabufPlane param format width height then 6
    else planesErrorCode expectedPlanes width height format (param.planeIdx :: seen) params

/-- The number of planes of a format. -/
def expectedPlanes (format : ℕ) : ℕ := if format = wlShmFormatNv12 then 2 else 1

/-- The error code for parameters that are not valid. -/
def paramsErrorCode (c : Context) (paramsId : ℕ) (width height : ℤ) (format : ℕ) : ℕ :=
  if width ≤ 0 ∨ height ≤ 0 then 5
  else if !isSupportedDrmFormat format then 4
  else
    match c.pendingParams.get paramsId with
    | none => 3
    | some params =>
      if params.length ≠ expectedPlanes format then 3
      else planesErrorCode (expectedPlanes format) width height format [] params

/-- The layout of plane zero as the host has it: stride and modifier of the resource behind the
descriptor, if the kernel knows one and tells its stride. -/
def applyDmabufPlane0Fixup (guestStride guestModifier : ℕ) (resourceInfo : Option (ℕ × ℕ))
    (supportsExtendedResourceInfo : Bool) : ℕ × ℕ :=
  match resourceInfo with
  | none => (guestStride, guestModifier)
  | some (stride, modifier) =>
    if supportsExtendedResourceInfo && stride != 0 then (stride, modifier)
    else (guestStride, guestModifier)

/-- What the device behind the allocator tells about a descriptor. -/
structure Plane0Device where
  resourceInfo : Option (ℕ × ℕ)
  supportsExtendedResourceInfo : Bool
  deriving DecidableEq, Repr

/-- A plane as it is collected; without an allocator nothing is asked. -/
def PendingParam.fixup (param : PendingParam) (allocator : Option Plane0Device) : PendingParam :=
  match allocator with
  | none => param
  | some device =>
    if param.planeIdx = 0 then
      let (stride, modifier) := applyDmabufPlane0Fixup param.stride param.modifier
        device.resourceInfo device.supportsExtendedResourceInfo
      { param with stride, modifier }
    else param

namespace DmabufSession

/-- The session before its first request. -/
def new : DmabufSession where
  context := .new
  paramFds := ∅
  createFds := ∅
  bufferFds := ∅
  requests := []
  queued := []
  sent := []
  closed := []
  nextFd := 0
  errors := []

def close (s : DmabufSession) (fds : List ℕ) : DmabufSession :=
  { s with closed := fds ++ s.closed }

/-- The next duplicates. -/
def duplicate (s : DmabufSession) (n : ℕ) : List ℕ × DmabufSession :=
  (List.range' s.nextFd n, { s with nextFd := s.nextFd + n })

def request (s : DmabufSession) (r : ParamsRequest) : DmabufSession :=
  { s with requests := r :: s.requests }

/-- `add` for one plane; the queue owns its descriptor. -/
def queueAdd (hostId : ℕ) (s : DmabufSession) (plane : PendingParam × ℕ) : DmabufSession :=
  { s.request (.add hostId plane.1 plane.2) with queued := s.queued ++ [plane.2] }

def queueProtocolError (s : DmabufSession) (objectId code : ℕ) : DmabufSession :=
  { s with context := s.context.queueProtocolError, errors := (objectId, code) :: s.errors }

/-- The session ends. -/
def fatal (s : DmabufSession) : DmabufSession := { s with context.fatalProtocolError := true }

/-- Take the planes of parameters out of the table, with their descriptors. -/
def takeParams (s : DmabufSession) (paramsId : ℕ) : List ℕ × DmabufSession :=
  ((s.paramFds.get paramsId).getD [], { s with
    context.pendingParams := s.context.pendingParams.erase paramsId
    paramFds := s.paramFds.erase paramsId })

def discardPendingParams (s : DmabufSession) (paramsId : ℕ) : DmabufSession :=
  let (fds, s) := s.takeParams paramsId
  s.close fds

/-- Take the descriptors of an unanswered creation, which is no longer waited for. -/
def takeCreate (s : DmabufSession) (hostParamsId : ℕ) : List ℕ × DmabufSession :=
  ((s.createFds.get hostParamsId).getD [], { s with
    context.pendingNativeCreates := s.context.pendingNativeCreates.erase hostParamsId
    createFds := s.createFds.erase hostParamsId })

def dropCreate (s : DmabufSession) (hostParamsId : ℕ) : DmabufSession :=
  let (fds, s) := s.takeCreate hostParamsId
  s.close fds

/-- A native buffer owns the descriptors, unless its ID is taken. -/
def registerNativeBuffer (s : DmabufSession) (hostBufferId : ℕ) (size : ℤ × ℤ) (fds : List ℕ) :
    Bool × DmabufSession :=
  let (registered, renderBuffers) := s.context.renderBuffers.registerNative hostBufferId size
  let s := { s with context.renderBuffers := renderBuffers }
  if registered then (true, { s with bufferFds := s.bufferFds.set hostBufferId fds })
  else (false, s.close fds)

/-! ## Requests -/

def onCreateParams (s : DmabufSession) (paramsId : ℕ) : Action × DmabufSession :=
  let previous := (s.paramFds.get paramsId).getD []
  (.forward, { s with
    context.usedDmabufParams := s.context.usedDmabufParams.erase paramsId
    context.pendingParams := s.context.pendingParams.set paramsId []
    paramFds := s.paramFds.set paramsId [] }.close previous)

/-- Collect a plane; `duplicated` is whether its descriptor could be duplicated. -/
def onAdd (s : DmabufSession) (paramsId : ℕ) (fd : ℤ) (param : PendingParam) (duplicated : Bool)
    (allocator : Option Plane0Device) : Action × DmabufSession :=
  if fd < 0 then (.drop, s)
  else if paramsId ∈ s.context.usedDmabufParams then (.drop, s.queueProtocolError paramsId 0)
  else if 1 < param.planeIdx then (.drop, s.queueProtocolError paramsId 1)
  else if (s.context.pendingParams.get paramsId).any (·.any (·.planeIdx == param.planeIdx)) then
    (.drop, s.queueProtocolError paramsId 2)
  else if !duplicated then (.drop, s)
  else
    let (fds, s) := s.duplicate 1
    match s.context.pendingParams.get paramsId with
    | none => (.drop, s.close fds)
    | some params => (.drop, { s with
        context.pendingParams :=
          s.context.pendingParams.set paramsId (params ++ [param.fixup allocator])
        paramFds := s.paramFds.set paramsId ((s.paramFds.get paramsId).getD [] ++ fds) })

/-- Send the planes and then the creation. `dups` is the number of descriptors that can be
duplicated before the first failure. -/
def processParams (s : DmabufSession) (paramsId dups : ℕ) (create : ℕ → ParamsRequest) :
    Option (ℕ × List ℕ) × DmabufSession :=
  match s.context.pendingParams.get paramsId with
  | none => (none, s)
  | some params =>
    let (fds, s) := s.takeParams paramsId
    match s.context.shadowTable.getHostId paramsId with
    | none => (none, (s.close fds).fatal)
    | some hostId =>
      let (syncFds, s) := s.duplicate (min dups params.length)
      if dups < params.length || params.isEmpty then
        (none, (s.close (syncFds ++ fds)).fatal)
      else
        let s := ((params.zip fds).foldl (queueAdd hostId) s).request (create hostId)
        (some (hostId, syncFds), { s with
          context.usedDmabufParams := insert paramsId s.context.usedDmabufParams })

def onCreate (s : DmabufSession) (paramsId : ℕ) (width height : ℤ) (format flags dups : ℕ) :
    Action × DmabufSession :=
  if paramsId ∈ s.context.usedDmabufParams then (.drop, s.queueProtocolError paramsId 0)
  else if !validParams s.context paramsId width height format then
    (.drop, (s.queueProtocolError paramsId
      (paramsErrorCode s.context paramsId width height format)).discardPendingParams paramsId)
  else
    match s.processParams paramsId dups (.create · width height format flags) with
    | (none, s) => (.drop, s)
    | (some (hostParamsId, syncFds), s) =>
      match s.context.pendingNativeCreates.get hostParamsId with
      | some _ => (.drop, (s.close syncFds).fatal)
      | none => (.drop, { s with
          context.pendingNativeCreates := s.context.pendingNativeCreates.set hostParamsId
            { guestParamsId := paramsId, dimensions := (width, height) }
          createFds := s.createFds.set hostParamsId syncFds })

/-- `none` is the panic of an exhausted ID space. -/
def onCreateImmed (s : DmabufSession) (paramsId bufferId : ℕ) (width height : ℤ)
    (format flags dups : ℕ) : Option (Action × DmabufSession) :=
  if paramsId ∈ s.context.usedDmabufParams then some (.drop, s.queueProtocolError paramsId 0)
  else if (s.context.pendingParams.get paramsId).isNone then some (.drop, s)
  else if (s.context.shadowTable.getHostId paramsId).isNone then
    some (.drop, (s.processParams paramsId dups (.create · width height format flags)).2)
  else if !validParams s.context paramsId width height format then
    some (.drop, (s.queueProtocolError paramsId
      (paramsErrorCode s.context paramsId width height format)).discardPendingParams paramsId)
  else do
    let (hostBufferId, shadowTable) ← s.context.shadowTable.allocateHostId
    let bufferVersion := (shadowTable.guestObjectVersion paramsId).getD unknownObjectVersion
    let s := { s with
      context.shadowTable :=
        shadowTable.registerObject bufferId hostBufferId .wlBuffer bufferVersion bufferVersion }
    match s.processParams paramsId dups
        (.createImmed · hostBufferId width height format flags) with
    | (none, s) =>
      some (.drop, { s with context.shadowTable := s.context.shadowTable.removeId bufferId })
    | (some (_, syncFds), s) =>
      let s := { s with context := s.context.queue (.create hostBufferId) }
      let (registered, s) := s.registerNativeBuffer hostBufferId (width, height) syncFds
      some (.drop, if registered then s else s.fatal)

/-- `destroy`, before it is forwarded. -/
def onDestroy (s : DmabufSession) (paramsId : ℕ) : Action × DmabufSession :=
  let s := { s with context.usedDmabufParams := s.context.usedDmabufParams.erase paramsId }
  let s := match s.context.shadowTable.getHostId paramsId with
    | none => s
    | some hostId =>
      match s.context.pendingNativeCreates.get hostId with
      | none => s
      | some _ => { s.dropCreate hostId with
          context.orphanedDmabufParams := s.context.orphanedDmabufParams.set hostId paramsId }
  (.forward, s.discardPendingParams paramsId)

/-! ## Answers of the host -/

/-- Forget that the parameters wait for an answer. -/
def forgetParams (s : DmabufSession) (hostParamsId : ℕ) : DmabufSession :=
  { s with
    context.orphanedDmabufParams :=
      s.context.orphanedDmabufParams.erase hostParamsId }.dropCreate hostParamsId

def onCreated (s : DmabufSession) (hostParamsId buffer : ℕ) : Action × DmabufSession :=
  if (s.context.orphanedDmabufParams.get hostParamsId).isSome then
    if !s.context.shadowTable.isHostIdAvailable buffer then (.drop, s.fatal)
    else
      let s := { s with context := destroyOrphanedBuffer s.context hostParamsId buffer }
      let s := s.forgetParams hostParamsId
      (.drop, { s with context := releaseOrphanedParams s.context hostParamsId })
  else
    match s.context.shadowTable.getGuestId hostParamsId with
    | none => (.forward, s)
    | some guestParamsId =>
      if s.context.shadowTable.isPendingDestroyGuest guestParamsId then
        if !s.context.shadowTable.isHostIdAvailable buffer then
          (.drop, s.fatal)
        else
          let s := { s with context := destroyOrphanedBuffer s.context hostParamsId buffer }
          (.drop, s.forgetParams hostParamsId)
      else
        match s.context.pendingNativeCreates.get hostParamsId with
        | none => (.forward, s)
        | some pending =>
          let (syncFds, s) := s.takeCreate hostParamsId
          if pending.guestParamsId ≠ guestParamsId then
            (.drop, (s.close syncFds).fatal)
          else
            let (registered, s) := s.registerNativeBuffer buffer pending.dimensions syncFds
            (.forward, if registered then s else s.fatal)

def onFailed (s : DmabufSession) (hostParamsId : ℕ) : Action × DmabufSession :=
  if (s.context.orphanedDmabufParams.get hostParamsId).isSome then
    let s := s.forgetParams hostParamsId
    (.drop, { s with context := releaseOrphanedParams s.context hostParamsId })
  else
    match s.context.shadowTable.getGuestId hostParamsId with
    | none => (.forward, s)
    | some guestParamsId =>
      if s.context.shadowTable.isPendingDestroyGuest guestParamsId then
        (.drop, s.forgetParams hostParamsId)
      else
        match s.context.pendingNativeCreates.get hostParamsId with
        | none => (.forward, s)
        | some pending =>
          let s := s.dropCreate hostParamsId
          if pending.guestParamsId ≠ guestParamsId then
            (.drop, s.fatal)
          else (.forward, s)

/-! ## The session without descriptors

What the handlers do to the rest of the session does not depend on the descriptors. -/

variable (s : DmabufSession) {paramsId hostParamsId : ℕ}

@[simp] theorem close_context (fds : List ℕ) : (s.close fds).context = s.context := rfl

@[simp] theorem dropCreate_context (hostParamsId : ℕ) : (s.dropCreate hostParamsId).context =
    { s.context with
      pendingNativeCreates := s.context.pendingNativeCreates.erase hostParamsId } := rfl

@[simp] theorem discardPendingParams_context (paramsId : ℕ) :
    (s.discardPendingParams paramsId).context =
      Sommelier.discardPendingParams s.context paramsId := rfl

/-- All planes of a creation in one go. -/
theorem foldl_queueAdd (hostId : ℕ) (planes : List (PendingParam × ℕ)) :
    planes.foldl (queueAdd hostId) s = { s with
      requests := (planes.map fun plane => .add hostId plane.1 plane.2).reverse ++ s.requests
      queued := s.queued ++ planes.map Prod.snd } := by
  induction planes generalizing s with
  | nil => simp
  | cons plane planes ih =>
    rw [List.foldl_cons, ih]
    simp [queueAdd, request]

theorem registerNativeBuffer_context (hostBufferId : ℕ) (size : ℤ × ℤ) (fds : List ℕ) :
    (if (s.registerNativeBuffer hostBufferId size fds).1 then
        (s.registerNativeBuffer hostBufferId size fds).2
      else (s.registerNativeBuffer hostBufferId size fds).2.fatal).context =
      { s.context with
        renderBuffers := (s.context.renderBuffers.registerNative hostBufferId size).2
        fatalProtocolError := s.context.fatalProtocolError ||
          !(s.context.renderBuffers.registerNative hostBufferId size).1 } := by
  unfold registerNativeBuffer
  dsimp only
  by_cases hreg : (s.context.renderBuffers.registerNative hostBufferId size).1 = true <;>
    simp [hreg, fatal, close]

@[simp] theorem PendingParam.fixup_planeIdx (param : PendingParam)
    (allocator : Option Plane0Device) : (param.fixup allocator).planeIdx = param.planeIdx := by
  unfold Sommelier.PendingParam.fixup
  split
  · rfl
  · split <;> rfl

theorem onAdd_context {fd : ℤ} (hfd : 0 ≤ fd) (paramsId : ℕ) (param : PendingParam)
    (duplicated : Bool) (allocator : Option Plane0Device) :
    (s.onAdd paramsId fd param duplicated allocator).2.context =
      (Sommelier.onAdd s.context paramsId (param.fixup allocator) duplicated).2 := by
  unfold onAdd Sommelier.onAdd
  rw [if_neg (Int.not_lt.mpr hfd), PendingParam.fixup_planeIdx]
  split_ifs
  · rfl
  · rfl
  · rfl
  · rfl
  · dsimp only [duplicate, Table.modify]
    cases s.context.pendingParams.get paramsId <;> rfl

/-- Every descriptor of the parameters can be duplicated. -/
def allDuplicated (paramsId dups : ℕ) : Bool :=
  (s.context.pendingParams.get paramsId).all fun params => decide (params.length ≤ dups)

theorem processParams_context (paramsId dups : ℕ) (create : ℕ → ParamsRequest) :
    (((s.processParams paramsId dups create).1.map Prod.fst),
      (s.processParams paramsId dups create).2.context) =
      Sommelier.processParams s.context paramsId (s.allDuplicated paramsId dups) := by
  unfold processParams Sommelier.processParams allDuplicated
  cases hparams : s.context.pendingParams.get paramsId with
  | none => rfl
  | some params =>
    dsimp only [takeParams, Sommelier.discardPendingParams]
    cases s.context.shadowTable.getHostId paramsId with
    | none => rfl
    | some hostId =>
      have hfew : decide (dups < params.length) = !decide (params.length ≤ dups) := by
        simp [← decide_not]
      simp only [duplicate, foldl_queueAdd, Option.all_some, hfew]
      split_ifs <;> rfl

theorem onCreate_context (paramsId : ℕ) (width height : ℤ) (format flags dups : ℕ) :
    (s.onCreate paramsId width height format flags dups).2.context =
      (Sommelier.onCreate s.context paramsId width height format
        (s.allDuplicated paramsId dups)).2 := by
  have hprocess := s.processParams_context paramsId dups (.create · width height format flags)
  unfold onCreate Sommelier.onCreate
  split_ifs
  · rfl
  · rfl
  · rw [← hprocess]
    rcases s.processParams paramsId dups (.create · width height format flags) with
      ⟨_ | ⟨hostParamsId, syncFds⟩, s'⟩
    · rfl
    · dsimp only [Option.map_some]
      cases s'.context.pendingNativeCreates.get hostParamsId <;> rfl

theorem onCreateImmed_context (paramsId bufferId : ℕ) (width height : ℤ)
    (format flags dups : ℕ) :
    (s.onCreateImmed paramsId bufferId width height format flags dups).map (·.2.context) =
      (Sommelier.onCreateImmed s.context paramsId bufferId width height format
        (s.allDuplicated paramsId dups)).map (·.2) := by
  unfold onCreateImmed Sommelier.onCreateImmed
  split_ifs
  · rfl
  · rfl
  · have hprocess := s.processParams_context paramsId dups (.create · width height format flags)
    rw [← hprocess]
    rfl
  · rfl
  · cases s.context.shadowTable.allocateHostId with
    | none => rfl
    | some allocated =>
      obtain ⟨hostBufferId, shadowTable⟩ := allocated
      dsimp only [Option.bind_eq_bind, Option.bind_some]
      have hprocess := DmabufSession.processParams_context { s with
        context.shadowTable := shadowTable.registerObject bufferId hostBufferId .wlBuffer
          ((shadowTable.guestObjectVersion paramsId).getD unknownObjectVersion)
          ((shadowTable.guestObjectVersion paramsId).getD unknownObjectVersion) } paramsId dups
        (.createImmed · hostBufferId width height format flags)
      dsimp only [allDuplicated] at hprocess ⊢
      rw [← hprocess]
      rcases DmabufSession.processParams _ paramsId dups
        (.createImmed · hostBufferId width height format flags) with
        ⟨_ | ⟨hostParamsId, syncFds⟩, s'⟩
      · rfl
      · dsimp only [Option.map_some]
        rw [DmabufSession.registerNativeBuffer_context]

theorem onDestroy_context (paramsId : ℕ) :
    (s.onDestroy paramsId).2.context = (paramsOnDestroy s.context paramsId).2 := by
  unfold onDestroy paramsOnDestroy
  dsimp only
  cases s.context.shadowTable.getHostId paramsId with
  | none => rfl
  | some hostId =>
    dsimp only
    cases s.context.pendingNativeCreates.get hostId <;> rfl

theorem onCreated_context (hostParamsId buffer : ℕ) :
    ((s.onCreated hostParamsId buffer).1, (s.onCreated hostParamsId buffer).2.context) =
      Sommelier.onCreated s.context hostParamsId buffer := by
  unfold onCreated Sommelier.onCreated
  cases (s.context.orphanedDmabufParams.get hostParamsId).isSome with
  | true => cases s.context.shadowTable.isHostIdAvailable buffer <;> rfl
  | false =>
    simp only [Bool.false_eq_true, if_false]
    cases s.context.shadowTable.getGuestId hostParamsId with
    | none => rfl
    | some guestParamsId =>
      dsimp only
      split_ifs
      · rfl
      · rfl
      · cases s.context.pendingNativeCreates.get hostParamsId with
        | none => rfl
        | some pending =>
          by_cases hsame : pending.guestParamsId = guestParamsId
          · simp only [hsame, ne_eq, not_true_eq_false, if_false]
            exact Prod.ext rfl (registerNativeBuffer_context ..)
          · simp only [hsame, ne_eq, not_false_eq_true, if_true]
            rfl

theorem onFailed_context (hostParamsId : ℕ) :
    ((s.onFailed hostParamsId).1, (s.onFailed hostParamsId).2.context) =
      Sommelier.onFailed s.context hostParamsId := by
  unfold onFailed Sommelier.onFailed
  split_ifs
  · rfl
  · cases s.context.shadowTable.getGuestId hostParamsId with
    | none => rfl
    | some guestParamsId =>
      dsimp only
      split_ifs
      · rfl
      · cases s.context.pendingNativeCreates.get hostParamsId with
        | none => rfl
        | some pending =>
          dsimp only [dropCreate]
          split_ifs <;> rfl

end DmabufSession
end Sommelier
