import Sommelier.Generated.Schema

/-!
# Generated dispatch

The dispatch functions the generator emits for an interface, under a handler that forwards
every message: decode, check the version and the IDs, translate the arguments from left to
right, and encode the result for the other side.

## Main definitions

* `ShadowTable.image`: the ID map a direction translates with.
* `validateRequestArg`, `validateEventArg`, `mapArg`: the code emitted for an argument.
* `dispatchRequest`, `dispatchEvent`: the code emitted for a message.
* `forwardMessage`: a message of either direction on its way through the proxy.
-/
namespace Sommelier

/-- The interface a client names as a string. -/
def Interface.ofName : String → Interface
  | "wl_display" => wlDisplay
  | "wl_registry" => wlRegistry
  | "wl_callback" => wlCallback
  | "wl_compositor" => wlCompositor
  | "wl_shm_pool" => wlShmPool
  | "wl_shm" => wlShm
  | "wl_buffer" => wlBuffer
  | "wl_data_offer" => wlDataOffer
  | "wl_data_source" => wlDataSource
  | "wl_data_device" => wlDataDevice
  | "wl_data_device_manager" => wlDataDeviceManager
  | "wl_shell" => wlShell
  | "wl_shell_surface" => wlShellSurface
  | "wl_surface" => wlSurface
  | "wl_seat" => wlSeat
  | "wl_pointer" => wlPointer
  | "wl_keyboard" => wlKeyboard
  | "wl_touch" => wlTouch
  | "wl_output" => wlOutput
  | "wl_region" => wlRegion
  | "wl_subcompositor" => wlSubcompositor
  | "wl_subsurface" => wlSubsurface
  | "wl_fixes" => wlFixes
  | "xdg_wm_base" => xdgWmBase
  | "xdg_positioner" => xdgPositioner
  | "xdg_surface" => xdgSurface
  | "xdg_toplevel" => xdgToplevel
  | "xdg_popup" => xdgPopup
  | "zwp_linux_dmabuf_v1" => zwpLinuxDmabufV1
  | "zwp_linux_buffer_params_v1" => zwpLinuxBufferParamsV1
  | "zwp_linux_dmabuf_feedback_v1" => zwpLinuxDmabufFeedbackV1
  | "wp_viewporter" => wpViewporter
  | "wp_viewport" => wpViewport
  | "zwp_text_input_v3" => zwpTextInputV3
  | "zwp_text_input_manager_v3" => zwpTextInputManagerV3
  | "zwp_text_input_v1" => zwpTextInputV1
  | "zwp_text_input_manager_v1" => zwpTextInputManagerV1
  | "zcr_text_input_extension_v1" => zcrTextInputExtensionV1
  | "zcr_extended_text_input_v1" => zcrExtendedTextInputV1
  | "zxdg_decoration_manager_v1" => zxdgDecorationManagerV1
  | "zxdg_toplevel_decoration_v1" => zxdgToplevelDecorationV1
  | "wp_fractional_scale_manager_v1" => wpFractionalScaleManagerV1
  | "wp_fractional_scale_v1" => wpFractionalScaleV1
  | "zcr_keyboard_extension_v1" => zcrKeyboardExtensionV1
  | "zcr_extended_keyboard_v1" => zcrExtendedKeyboardV1
  | "gtk_shell1" => gtkShell1
  | "gtk_surface1" => gtkSurface1
  | "zaura_shell" => zauraShell
  | "zaura_surface" => zauraSurface
  | "zaura_output" => zauraOutput
  | "zaura_toplevel" => zauraToplevel
  | "zaura_popup" => zauraPopup
  | name => unclassified name

/-- The ID map a direction translates with, from the sender's to the receiver's IDs. -/
def ShadowTable.image (t : ShadowTable) : Direction → Table ℕ ℕ
  | .clientToHost => t.guestToHost
  | .hostToClient => t.hostToGuest

/-- How a dispatch ends without a message: dropped or rejected, with the table it leaves
behind, or in the panic of an exhausted ID space. -/
inductive Halt
  | dropped (t : ShadowTable)
  | rejected (e : ProtocolError) (t : ShadowTable)
  | exhausted

/-! ## Validations -/

section
variable (t : ShadowTable)

/-- The `since` guard of a message. -/
def checkSince (since objectVersion : Option ℕ) (senderId : ℕ) : Except Halt Unit :=
  match since, objectVersion with
  | none, _ => .ok ()
  | some _, none => .error (.rejected (.invalidObjectId senderId) t)
  | some required, some actual =>
    if actual < required then
      .error (.rejected (.unsupportedVersion senderId required actual) t)
    else .ok ()

def checkGuestNewId (id : ℕ) : Except Halt Unit :=
  if t.isGuestIdAvailable id then .ok () else .error (.rejected (.invalidObjectId id) t)

def invalidRequestObject (interface : Option Interface) (id : ℕ) : Bool :=
  match interface with
  | some interface =>
    t.isPendingDestroyGuest id || !t.guestObjectMatches id interface ||
      ((t.getHostId id).isNone && !t.isLocalOnlyGuestObject id)
  | none => t.isPendingDestroyGuest id || (t.getHostId id).isNone

def checkRequestObject (interface : Option Interface) (allowNull : Bool) (id : ℕ) :
    Except Halt Unit :=
  if (!allowNull || id != 0) && invalidRequestObject t interface id then
    .error (.rejected (.invalidObjectId id) t)
  else .ok ()

def validateRequestArg : (a : ArgType .clientToHost) → a.Value → Except Halt Unit
  | .newId _, id => checkGuestNewId t id
  | .newIdAny, (_, _, id) => checkGuestNewId t id
  | .object interface allowNull, id => checkRequestObject t interface allowNull id
  | _, _ => .ok ()

def checkHostNewId (id : ℕ) : Except Halt Unit :=
  if t.isHostIdAvailable id then .ok () else .error (.rejected (.invalidObjectId id) t)

/-- Only the interface of a typed argument comes with a test for pending destruction. -/
def invalidEventObject (interface : Option Interface) (id : ℕ) : Bool :=
  match interface with
  | some interface =>
    t.isPendingDestroyHost id || !t.hostObjectMatches id interface || (t.getGuestId id).isNone
  | none => (t.getGuestId id).isNone

/-- An event with an unusable object is dropped, not rejected. -/
def checkEventObject (interface : Option Interface) (allowNull : Bool) (id : ℕ) :
    Except Halt Unit :=
  if (!allowNull || id != 0) && invalidEventObject t interface id then .error (.dropped t)
  else .ok ()

def validateEventArg : (a : ArgType .hostToClient) → a.Value → Except Halt Unit
  | .newId _, id => checkHostNewId t id
  | .object interface allowNull, id => checkEventObject t interface allowNull id
  | _, _ => .ok ()

end

/-! ## Translation of the arguments -/

def mapObject (d : Direction) (allowNull : Bool) (id : ℕ) (t : ShadowTable) :
    Except Halt (ℕ × ShadowTable) :=
  if allowNull && id == 0 then .ok (0, t)
  else
    match (t.image d).get id with
    | some id => .ok (id, t)
    | none => .error (.dropped t)

/-- Pair a new guest object with a new host object. -/
def newHostObject (id : ℕ) (interface : Interface) (version hostVersion : ℕ)
    (t : ShadowTable) : Except Halt (ℕ × ShadowTable) :=
  match t.allocateHostId with
  | some (hostId, t) => .ok (hostId, t.registerObject id hostId interface version hostVersion)
  | none => .error .exhausted

/-- Pair a new host object with a new guest object of the server range. -/
def newGuestObject (id : ℕ) (interface : Interface) (version : ℕ) (t : ShadowTable) :
    Except Halt (ℕ × ShadowTable) :=
  match t.allocateGuestServerId with
  | some (guestId, t) => .ok (guestId, t.registerObject guestId id interface version version)
  | none => .error .exhausted

/-- A new object has the version of the object that creates it. -/
def mapNewIdArg (d : Direction) (senderId : ℕ) (interface : Interface) (id : ℕ)
    (t : ShadowTable) : Except Halt (ℕ × ShadowTable) :=
  match d with
  | .clientToHost =>
    let version := (t.guestObjectVersion senderId).getD 0xffffffff
    let hostVersion := ((t.getHostId senderId).bind t.hostObjectVersion).getD version
    newHostObject id interface version hostVersion t
  | .hostToClient =>
    newGuestObject id interface ((t.hostObjectVersion senderId).getD 0xffffffff) t

/-- The image of an argument on the other side. -/
def mapArg {d : Direction} (senderId : ℕ) :
    (a : ArgType d) → a.Value → ShadowTable → Except Halt (a.Value × ShadowTable)
  | .object _ allowNull, id, t => mapObject d allowNull id t
  | .newId interface, id, t => mapNewIdArg d senderId interface id t
  | .newIdAny, (name, version, id), t =>
    (newHostObject id (.ofName name) version version t).map fun (hostId, t) =>
      ((name, version, hostId), t)
  | .int, v, t => .ok (v, t)
  | .uint, v, t => .ok (v, t)
  | .fixed, v, t => .ok (v, t)
  | .string _, v, t => .ok (v, t)
  | .array, v, t => .ok (v, t)
  | .fd, v, t => .ok (v, t)

/-- Encode the arguments for the receiver. -/
def buildMessage (o : ByteOrder) {d : Direction} (args : List (ArgType d))
    (vs : ArgValues args) (senderId opcode : ℕ) : Except ProtocolError Packet :=
  let builder := writeArgs o args vs .new
  (tryBuildMessage o builder.payload senderId opcode).map fun bytes => (bytes, builder.fds)

/-! ## Dispatch -/

/-- Retire a destroyed object that the host does not know, as `queue_local_delete_id`. -/
def ShadowTable.retireLocal (t : ShadowTable) (guestId : ℕ) : ShadowTable :=
  if (t.getInterface guestId).isSome && (t.getHostId guestId).isNone then t.removeId guestId
  else t

def requestDestructorCleanup (destructor : Bool) (senderId : ℕ) (t : ShadowTable) :
    ShadowTable :=
  if destructor then
    -- The host sends no `delete_id` for the objects it created.
    if ShadowTable.isGuestServerId senderId then t.removeId senderId
    else t.markPendingDestroy senderId
  else t

def eventDestructorCleanup (destructor : Bool) (guestSenderId : ℕ) (t : ShadowTable) :
    ShadowTable :=
  if destructor then t.removeId guestSenderId else t

section
variable (o : ByteOrder)

def dispatchRequest (messages : List (MessageSchema .clientToHost)) (t : ShadowTable)
    (msg : WireMessage) : Except Halt (Packet × ShadowTable) :=
  match fromWire o messages msg with
  | .error e => .error (.rejected e t)
  | .ok (⟨s, vs⟩, _) =>
    if t.isPendingDestroyGuest msg.senderId then
      .error (.rejected (.invalidObjectId msg.senderId) t)
    else
      (checkSince t s.since (t.guestObjectVersion msg.senderId) msg.senderId).bind fun _ =>
      (checkSeq (validateRequestArg t) s.args vs).bind fun _ =>
      let hostSenderId := t.getHostId msg.senderId
      if hostSenderId.isNone && !t.isLocalOnlyGuestObject msg.senderId then
        .error (.rejected (.invalidObjectId msg.senderId) t)
      else
        (mapSeq (mapArg msg.senderId) s.args vs t).bind fun (ws, t) =>
        match hostSenderId with
        | none => .error (.dropped (if s.destructor then t.retireLocal msg.senderId else t))
        | some hostSenderId =>
          match buildMessage o s.args ws hostSenderId msg.opcode with
          | .error e => .error (.rejected e t)
          | .ok packet => .ok (packet, requestDestructorCleanup s.destructor msg.senderId t)

def dispatchEvent (messages : List (MessageSchema .hostToClient)) (t : ShadowTable)
    (msg : WireMessage) : Except Halt (Packet × ShadowTable) :=
  if !t.isEventSenderKnown msg.senderId then .error (.dropped t)
  else
    match fromWire o messages msg with
    | .error e => .error (.rejected e t)
    | .ok (⟨s, vs⟩, _) =>
      (checkSince t s.since (t.hostObjectVersion msg.senderId) msg.senderId).bind fun _ =>
      (checkSeq (validateEventArg t) s.args vs).bind fun _ =>
      let mappedGuestSenderId := t.getGuestId msg.senderId
      (mapSeq (mapArg msg.senderId) s.args vs t).bind fun (ws, t) =>
      match mappedGuestSenderId with
      | none => .error (.dropped t)
      | some guestSenderId =>
        match buildMessage o s.args ws guestSenderId msg.opcode with
        | .error e => .error (.rejected e t)
        | .ok packet => .ok (packet, eventDestructorCleanup s.destructor guestSenderId t)

/-- `consume_event`: the events of an object that awaits its destruction are decoded and
dropped. -/
def consumeEvent (messages : List (MessageSchema .hostToClient)) (t : ShadowTable)
    (msg : WireMessage) : Except Halt (Packet × ShadowTable) :=
  match fromWire o messages msg with
  | .error e => .error (.rejected e t)
  | .ok _ => .error (.dropped t)

/-- A message on its way through the proxy. The exceptions to the suppression of stale
events are for buffers and buffer parameters, whose handlers do not forward them. -/
def forwardMessage : (d : Direction) → List (MessageSchema d) → ShadowTable → WireMessage →
    Except Halt (Packet × ShadowTable)
  | .clientToHost, messages, t, msg => dispatchRequest o messages t msg
  | .hostToClient, messages, t, msg =>
    if t.isPendingDestroyHost msg.senderId then consumeEvent o messages t msg
    else dispatchEvent o messages t msg

end
end Sommelier
