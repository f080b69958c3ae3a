import Sommelier.Lib.DoubleBuffer
import Sommelier.Objects.SurfaceFrame

/-!
# Surfaces on the host

What a Wayland compositor makes of the requests the proxy forwards: the double-buffered state
of its surfaces. There are no synchronized subsurfaces, whose commits it would hold back.

## Main definitions

* `SurfaceRequest`: the forwarded requests, with host IDs.
* `HostCompositor`, `HostCompositor.apply`: the host and its reaction to a request.
* `Message.forwarded`: what the proxy forwards for a message.
* `hostedSystem`: sessions together with their host.
-/
namespace Sommelier

/-- Requests on surfaces, viewports and buffers. -/
inductive SurfaceRequest
  | createSurface (surface : ℕ)
  | destroySurface (surface : ℕ)
  | attach (surface buffer : ℕ)
  | setBufferScale (surface : ℕ) (scale : ℤ)
  | setBufferTransform (surface : ℕ) (transform : ℤ)
  | commit (surface : ℕ)
  | getViewport (viewport surface : ℕ)
  | setSource (viewport : ℕ) (x y width height : ℤ)
  | setDestination (viewport : ℕ) (width height : ℤ)
  | destroyViewport (viewport : ℕ)
  | destroyBuffer (buffer : ℕ)
  deriving DecidableEq, Repr

/-! ## The host -/

/-- Double-buffered state of a surface. The crop and scale is `none` without a viewport. -/
@[ext] structure HostSurface where
  scale : Mirrored ℤ
  transform : Mirrored ℤ
  viewport : Mirrored (Option ViewportState)
  buffer : Mirrored (Option ℕ)

namespace HostSurface

def new : HostSurface where
  scale := .new 1
  transform := .new 0
  viewport := .new none
  buffer := .new none

def commit (x : HostSurface) : HostSurface where
  scale := x.scale.commit
  transform := x.transform.commit
  viewport := x.viewport.commit
  buffer := x.buffer.commit

/-- Forget a buffer that was destroyed. -/
def dropBuffer (buffer : ℕ) (x : HostSurface) : HostSurface :=
  { x with
    buffer := ⟨x.buffer.current.filter (· != buffer), x.buffer.next.filter (· != buffer)⟩ }

end HostSurface

/-- The surfaces, and the surface of each viewport. -/
structure HostCompositor where
  surfaces : ℕ → HostSurface
  viewports : ℕ → Option ℕ

namespace HostCompositor

def new : HostCompositor where
  surfaces _ := .new
  viewports _ := none

def updateSurface (k : HostCompositor) (surface : ℕ) (f : HostSurface → HostSurface) :
    HostCompositor :=
  { k with surfaces := Function.update k.surfaces surface (f (k.surfaces surface)) }

/-- Change the crop and scale of the surface of a viewport; a viewport without a surface has no
effect. -/
def updateViewport (k : HostCompositor) (viewport : ℕ)
    (f : Option ViewportState → Option ViewportState) : HostCompositor :=
  match k.viewports viewport with
  | none => k
  | some surface => k.updateSurface surface fun x =>
    { x with viewport := x.viewport.set (f x.viewport.next) }

def apply (k : HostCompositor) : SurfaceRequest → HostCompositor
  | .createSurface surface => k.updateSurface surface fun _ => .new
  | .destroySurface surface =>
    { k with viewports := fun viewport => (k.viewports viewport).filter (· != surface) }
  | .attach surface buffer => k.updateSurface surface fun x =>
    { x with buffer := x.buffer.set (if buffer = 0 then none else some buffer) }
  | .setBufferScale surface scale => k.updateSurface surface fun x =>
    { x with scale := x.scale.set scale }
  | .setBufferTransform surface transform => k.updateSurface surface fun x =>
    { x with transform := x.transform.set transform }
  | .commit surface => k.updateSurface surface HostSurface.commit
  | .getViewport viewport surface =>
    let k := { k with viewports := Function.update k.viewports viewport (some surface) }
    k.updateSurface surface fun x => { x with viewport := x.viewport.set (some .new) }
  | .setSource viewport x y width height =>
    k.updateViewport viewport <| Option.map fun state =>
      { state with
        source := if (x, y, width, height) = (-256, -256, -256, -256) then none
          else some (x, y, width, height) }
  | .setDestination viewport width height =>
    k.updateViewport viewport <| Option.map fun state =>
      { state with
        destination := if width = -1 ∧ height = -1 then none else some (width, height) }
  | .destroyViewport viewport =>
    let k := k.updateViewport viewport fun _ => none
    { k with viewports := Function.update k.viewports viewport none }
  | .destroyBuffer buffer =>
    { k with surfaces := fun surface => (k.surfaces surface).dropBuffer buffer }

@[simp] theorem updateSurface_viewports (k : HostCompositor) (surface : ℕ)
    (f : HostSurface → HostSurface) : (k.updateSurface surface f).viewports = k.viewports := rfl

@[simp] theorem updateViewport_viewports (k : HostCompositor) (viewport : ℕ)
    (f : Option ViewportState → Option ViewportState) :
    (k.updateViewport viewport f).viewports = k.viewports := by
  unfold updateViewport
  split <;> simp

theorem destroyViewport_viewports (k : HostCompositor) (destroyed viewport : ℕ) :
    (k.apply (.destroyViewport destroyed)).viewports viewport =
      if viewport = destroyed then none else k.viewports viewport := by
  simp [apply, Function.update_apply]

theorem destroyViewport_surfaces (k : HostCompositor) (viewport surface : ℕ) :
    (k.apply (.destroyViewport viewport)).surfaces surface =
      if k.viewports viewport = some surface then { k.surfaces surface with
        viewport := (k.surfaces surface).viewport.set none }
      else k.surfaces surface := by
  simp only [apply, updateViewport]
  cases hk : k.viewports viewport with
  | none => simp
  | some owner =>
    by_cases heq : surface = owner
    · simp [heq, updateSurface]
    · simp [heq, Ne.symm heq, updateSurface]

end HostCompositor

/-! ## The forwarded requests -/

/-- The requests the handlers queue. -/
def HostTraffic.surfaceRequest : HostTraffic → Option SurfaceRequest
  | attach surface buffer => some (.attach surface buffer)
  | commit surface => some (.commit surface)
  | destroyBuffer buffer _ _ => some (.destroyBuffer buffer)
  | _ => none

/-- What was sent to the host in a step, in order. -/
def sentTraffic (c c' : Context) : List HostTraffic :=
  (c'.traffic.take (c'.traffic.length - c.traffic.length)).reverse

/-- A request that its handler lets through is sent with the host ID of its sender. -/
def forwardFor (c : Context) (senderId : ℕ) (action : Action) (request : ℕ → SurfaceRequest) :
    List SurfaceRequest :=
  match action, c.shadowTable.getHostId senderId with
  | .forward, some hostId => [request hostId]
  | _, _ => []

/-- The requests that are not queued by a handler. The destructor of a surface is, but the
traffic does not show what it destroys. -/
def Message.passedOn (c c' : Context) : Message → List SurfaceRequest
  | .newObject _ guestId .wlSurface => forwardFor c' guestId .forward .createSurface
  | .destroySurface surface => forwardFor c surface .forward .destroySurface
  | .setBufferScale surface scale =>
    forwardFor c surface (onSetBufferScale c surface scale).1 (.setBufferScale · scale)
  | .setBufferTransform surface transform =>
    forwardFor c surface (onSetBufferTransform c surface transform).1
      (.setBufferTransform · transform)
  | .getViewport _ viewport surface =>
    match c.shadowTable.getHostId surface with
    | some hostSurface =>
      forwardFor c' viewport (onGetViewport c viewport surface).1 (.getViewport · hostSurface)
    | none => []
  | .setSource viewport x y width height =>
    forwardFor c viewport (onSetSource c viewport x y width height).1
      (.setSource · x y width height)
  | .setDestination viewport width height =>
    forwardFor c viewport (onSetDestination c viewport width height).1
      (.setDestination · width height)
  | .destroyViewport viewport =>
    forwardFor c viewport (viewportOnDestroy c viewport).1 .destroyViewport
  | _ => []

/-- The requests forwarded in a step, in order. -/
def Message.forwarded (c c' : Context) (m : Message) : List SurfaceRequest :=
  m.passedOn c c' ++ (sentTraffic c c').filterMap HostTraffic.surfaceRequest

/-- A session and the host it forwards to. -/
structure HostedSession where
  context : Context
  host : HostCompositor

def HostedSession.step (maps : DamageMapping) (s : HostedSession) (m : Message) :
    Option HostedSession :=
  (Sommelier.step maps s.context m).map fun c' =>
    { context := c', host := (m.forwarded s.context c').foldl HostCompositor.apply s.host }

/-- Sessions from their start, with a host that has no surface yet and follows the rules for
object IDs. -/
def hostedSystem (maps : DamageMapping) : TransitionSystem HostedSession Message where
  init s := s = ⟨.new, .new⟩
  step := HostedSession.step maps

end Sommelier
