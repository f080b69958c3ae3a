import Sommelier.State.Globals

/-!
# Formats of emulated `wl_shm` objects

The proxy emulates `wl_shm` for the guest. It advertises the mandatory formats at once, and
the others when the host's `wl_shm` or dma-buf object reports them.

## Main definitions

* `guestShmFormatAvailable`: the formats the host can take.
* `recordHostShmFormat`: a report of the host.
* `registerGuestShm`: a new `wl_shm` of the guest.
* `createBufferFormatCheck`: the check of `wl_shm_pool.create_buffer`.
-/
namespace Sommelier

def supportedShmFormats : List ℕ :=
  [0, 1, wlShmFormatNv12, wlShmFormatRgb565, drmFormatAbgr8888, drmFormatXbgr8888]

def mandatoryShmFormats : List ℕ := [0, 1]

def supportedShmFormat (format : ℕ) : Bool := supportedShmFormats.contains format

/-- The `wl_shm` value of a DRM format. -/
def shmFormatFromDrm (format : ℕ) : Option ℕ :=
  if format = drmFormatArgb8888 then some 0
  else if format = drmFormatXrgb8888 then some 1
  else if supportedShmFormat format then some format
  else none

namespace GlobalContext

/-- Two planes need an output path that describes both. -/
def guestShmFormatAvailable (c : GlobalContext) (format : ℕ) : Bool :=
  (mandatoryShmFormats.contains format || decide (format ∈ c.hostShmFormats)) &&
    (format != wlShmFormatNv12 || c.options.virtwaylandChannel.isSome ||
      (c.options.gpuAccel && c.hostDmabufId.isSome && c.options.allocator))

/-- Send a format to one `wl_shm` of the guest, unless it is stale or knows the format. -/
def advertiseShmFormat (format : ℕ) (c : GlobalContext) (guestId : ℕ) : GlobalContext :=
  if guestId ∈ c.staleShmGuestObjects ∨ c.guestShmFormatAvailable format = false then c
  else
    match c.shmGuestFormats.get guestId with
    | none => c
    | some advertised =>
      if format ∈ advertised then c
      else
        { c with
          shmGuestFormats := c.shmGuestFormats.set guestId (insert format advertised) }.sendGuest
            (.shmFormat guestId format)

def recordHostShmFormat (c : GlobalContext) (format : ℕ) : GlobalContext :=
  if supportedShmFormat format = false ∨ format ∈ c.hostShmFormats then c
  else
    let c := { c with hostShmFormats := insert format c.hostShmFormats }
    (c.shmGuestFormats.entries.map (·.1)).foldl (advertiseShmFormat format) c

def recordHostShmWlFormat (c : GlobalContext) (format : ℕ) : GlobalContext :=
  let c := if supportedShmFormat format then
      { c with hostWlShmFormats := insert format c.hostWlShmFormats }
    else c
  c.recordHostShmFormat format

def recordHostShmDrmFormat (c : GlobalContext) (format : ℕ) : GlobalContext :=
  match shmFormatFromDrm format with
  | none => c
  | some shmFormat =>
    { c with
      hostDmabufShmFormats := insert shmFormat c.hostDmabufShmFormats }.recordHostShmFormat
        shmFormat

/-- Forget the formats only the host's `wl_shm` reported. -/
def clearHostShmWlFormats (c : GlobalContext) : GlobalContext :=
  { c with
    hostWlShmFormats := ∅
    hostShmFormats := c.hostShmFormats.filter fun format =>
      format ∉ c.hostWlShmFormats ∨ format ∈ c.hostDmabufShmFormats }

/-- Forget the formats only the host's dma-buf object reported. -/
def clearHostShmDmabufFormats (c : GlobalContext) : GlobalContext :=
  { c with
    hostDmabufShmFormats := ∅
    hostShmFormats := c.hostShmFormats.filter fun format =>
      format ∉ c.hostDmabufShmFormats ∨ format ∈ c.hostWlShmFormats }

def registerGuestShm (c : GlobalContext) (guestId : ℕ) : GlobalContext :=
  let formats := supportedShmFormats.filter c.guestShmFormatAvailable
  let c := { c with shmGuestFormats := c.shmGuestFormats.set guestId formats.toFinset }
  formats.foldl (fun c format => c.sendGuest (.shmFormat guestId format)) c

/-! ## Handlers -/

def shmOnFormat (c : GlobalContext) (hostId format : ℕ) : Action × GlobalContext :=
  if c.hostShmId = some hostId then (.drop, c.recordHostShmWlFormat format) else (.forward, c)

/-- The checks of the pool's size and descriptor, and its mapping, passed when `mapped`. -/
def onCreatePool (c : GlobalContext) (shmId poolId : ℕ) (mapped : Bool) :
    Action × GlobalContext :=
  if shmId ∈ c.staleShmGuestObjects then (.drop, c)
  else if !mapped then (.drop, c.queueProtocolError)
  else
    (.drop, { c with
      pools := c.pools.set poolId shmId
      shadowTable := c.shadowTable.trackInterfaceWithVersion poolId .wlShmPool 1 })

def shmOnRelease (c : GlobalContext) (guestId : ℕ) : Action × GlobalContext :=
  (.forward, { c with
    shmGuestFormats := c.shmGuestFormats.erase guestId
    staleShmGuestObjects := c.staleShmGuestObjects.erase guestId })

def poolOnDestroy (c : GlobalContext) (poolId : ℕ) : Action × GlobalContext :=
  (.drop, { c with
    pools := c.pools.erase poolId
    staleShmPools := c.staleShmPools.erase poolId })

/-- How `wl_shm_pool.create_buffer` treats the format, before it looks at the rest. -/
inductive FormatCheck
  | ignored
  | unknownPool
  | rejected
  | passed
  deriving DecidableEq, Repr

def createBufferFormatCheck (c : GlobalContext) (poolId format : ℕ) : FormatCheck :=
  if poolId ∈ c.staleShmPools then .ignored
  else if (c.pools.get poolId).isNone then .unknownPool
  else if !supportedShmFormat format || !c.guestShmFormatAvailable format then .rejected
  else .passed

end GlobalContext
end Sommelier
