import Sommelier.Handler.DmabufParams
import Sommelier.Lib.Custody
import Sommelier.Objects.ParamsFrame

/-!
# Sessions with descriptors

The object system with the descriptors and the requests of dma-buf parameters. The messages about
parameters go to the handlers that know descriptors; all others are those of the object system,
and what they take out of the session gives up its descriptors.

## Main definitions

* `DmabufMessage`: the inputs, with what the kernel makes of the duplications.
* `DmabufSession.step`, `dmabufSystem`: one message, and the system.
* `DmabufSession.disconnect`: the end of the connection.

## Main results

* `dmabufSystem_refines`: without descriptors a run is one of the object system.
-/
namespace Sommelier

/-- Messages about parameters, all others, and the moment the queue is sent. -/
inductive DmabufMessage
  | createParams (factory params : ℕ)
  | add (params : ℕ) (fd : ℤ) (param : PendingParam) (duplicated : Bool)
      (allocator : Option Plane0Device)
  | create (params : ℕ) (width height : ℤ) (format flags dups : ℕ)
  | createImmed (params buffer : ℕ) (width height : ℤ) (format flags dups : ℕ)
  | destroyParams (params : ℕ)
  | created (params buffer : ℕ)
  | failed (params : ℕ)
  | other (m : Message)
  | flush

/-- The buffer of the host ID is a native one that may still be used. -/
def Context.isNative (c : Context) (hostId : ℕ) : Bool :=
  match c.renderBuffers.activeBuffer hostId with
  | some { backing := .native _, .. } => true
  | _ => false

namespace DmabufSession

/-- The session goes on unless the handler found a fatal error. -/
def settle (s : DmabufSession) : Option DmabufSession :=
  if s.context.fatalProtocolError then none else some s

/-- A request is handled only for a sender and arguments that pass the checks. -/
def guarded (allowed : Bool) (next : Option DmabufSession) : Option DmabufSession :=
  if allowed then next else none

/-- Deliver an event to its handler, unless its object is being destroyed or unknown. -/
def deliver (s : DmabufSession) (senderId opcode : ℕ) (interface : Interface)
    (handle : DmabufSession → Option DmabufSession) : Option DmabufSession :=
  match s.context.eventInterface senderId with
  | none => some s
  | some name =>
    if name ≠ interface then none
    else if pendingHostEventIsStale s.context senderId opcode then some s
    else handle s

/-- A new parameters object, whose creation is forwarded. -/
def forwardCreateParams (s : DmabufSession) (factory params : ℕ) : Option DmabufSession :=
  (mapNewId s.context factory params .zwpLinuxBufferParamsV1).map fun context =>
    { s with context }.request (.createParams ((context.shadowTable.getHostId params).getD 0))

/-- The destructor of a parameters object is forwarded. -/
def forwardDestroy (s : DmabufSession) (params : ℕ) : DmabufSession :=
  let s' := { s with context := destroyPlain s.context params }
  match s.context.shadowTable.getHostId params with
  | none => s'
  | some hostId => s'.request (.destroy hostId)

/-- The session after a message that is not about parameters: what is no longer there gives up its
descriptors. -/
def follow (s : DmabufSession) (context : Context) : DmabufSession :=
  let creates := fun h (_ : List ℕ) => (context.pendingNativeCreates.get h).isSome
  let buffers := fun h (_ : List ℕ) => context.isNative h
  { s with
    context
    createFds := s.createFds.retain creates
    bufferFds := s.bufferFds.retain buffers }.close
      ((s.createFds.retain fun h l => !creates h l).flatten ++
        (s.bufferFds.retain fun h l => !buffers h l).flatten)

/-- The queue is sent, and the host has its descriptors. -/
def flush (s : DmabufSession) : DmabufSession :=
  { s with sent := s.sent ++ s.queued, queued := [] }

/-- One message; an event must be one the host may send. -/
def step (maps : DamageMapping) (s : DmabufSession) : DmabufMessage → Option DmabufSession
  | .createParams factory params =>
    guarded (s.context.requestAllowed factory .zwpLinuxDmabufV1 0 &&
      s.context.shadowTable.isGuestIdAvailable params)
      ((s.onCreateParams params).2.forwardCreateParams factory params)
  | .add params fd param duplicated allocator =>
    guarded (s.context.requestAllowed params .zwpLinuxBufferParamsV1 0)
      (s.onAdd params fd param duplicated allocator).2.settle
  | .create params width height format flags dups =>
    guarded (s.context.requestAllowed params .zwpLinuxBufferParamsV1 0)
      (s.onCreate params width height format flags dups).2.settle
  | .createImmed params buffer width height format flags dups =>
    guarded (s.context.requestAllowed params .zwpLinuxBufferParamsV1 2 &&
      s.context.shadowTable.isGuestIdAvailable buffer)
      ((s.onCreateImmed params buffer width height format flags dups).bind fun result =>
        result.2.settle)
  | .destroyParams params =>
    guarded (s.context.requestAllowed params .zwpLinuxBufferParamsV1 0)
      ((s.onDestroy params).2.forwardDestroy params).settle
  | .created params buffer =>
    guarded (hostConforms s.context (.created params buffer)) <|
      s.deliver params 0 .zwpLinuxBufferParamsV1 fun s =>
        guarded (s.context.shadowTable.isHostIdAvailable buffer)
          (let (action, s) := s.onCreated params buffer
          s.settle.bind fun s =>
            if action = .forward then
              (mapAnnouncedId s.context params buffer .wlBuffer).map ({ s with context := · })
            else some s)
  | .failed params =>
    guarded (hostConforms s.context (.failed params)) <|
      s.deliver params 1 .zwpLinuxBufferParamsV1 fun s => (s.onFailed params).2.settle
  | .other m =>
    guarded (!m.isAboutParams) ((Sommelier.step maps s.context m).map s.follow)
  | .flush => some s.flush

/-- The connection ends: what is queued and what is collected is closed, each descriptor once, and
the rest goes with its owner. -/
def disconnect (s : DmabufSession) : DmabufSession :=
  { s with
    paramFds := ∅
    createFds := ∅
    bufferFds := ∅
    queued := [] }.close
      ((s.queued ++ s.paramFds.flatten).dedup ++ s.createFds.flatten ++ s.bufferFds.flatten)

end DmabufSession

/-- Sessions from their start, for any conversion of damage. As in the object system, the hosts
follow the rules for object IDs. -/
def dmabufSystem (maps : DamageMapping) : TransitionSystem DmabufSession DmabufMessage where
  init s := s = .new
  step := DmabufSession.step maps

/-! ## Without descriptors -/

/-- The message as the object system sees it; what concerns descriptors only is none. -/
def DmabufMessage.message (s : DmabufSession) : DmabufMessage → Option Message
  | .createParams factory params => some (.createParams factory params)
  | .add params fd param duplicated allocator =>
    if fd < 0 then none else some (.addPlane params (param.fixup allocator) duplicated)
  | .create params width height format _ dups =>
    some (.create params width height format (s.allDuplicated params dups))
  | .createImmed params buffer width height format _ dups =>
    some (.createImmed params buffer width height format (s.allDuplicated params dups))
  | .destroyParams params => some (.destroyParams params)
  | .created params buffer => some (.created params buffer)
  | .failed params => some (.failed params)
  | .other m => some m
  | .flush => none

namespace DmabufSession
variable {maps : DamageMapping} {s s' : DmabufSession}

theorem guarded_eq_some {allowed : Bool} {next : Option DmabufSession} :
    guarded allowed next = some s' ↔ allowed = true ∧ next = some s' := by
  unfold guarded
  split_ifs with h <;> simp [h]

theorem settle_eq_some : s.settle = some s' ↔ s.context.fatalProtocolError = false ∧ s = s' := by
  unfold settle
  split_ifs with h <;> simp [h]

theorem deliver_eq_some {senderId opcode : ℕ} {interface : Interface}
    {handle : DmabufSession → Option DmabufSession}
    (h' : s.deliver senderId opcode interface handle = some s') :
    s' = s ∨ handle s = some s' := by
  unfold deliver at h'
  cases hname : s.context.eventInterface senderId with
  | none =>
    rw [hname] at h'
    exact .inl (Option.some.inj h').symm
  | some name =>
    rw [hname] at h'
    dsimp only at h'
    split_ifs at h'
    · exact .inl (Option.some.inj h').symm
    · exact .inr h'

/-- A buffer that is forwarded gets a guest ID. -/
theorem announced_eq_some {result : Action × DmabufSession} {params buffer : ℕ}
    (h' : result.2.settle.bind (fun s =>
      if result.1 = .forward then
        (mapAnnouncedId s.context params buffer .wlBuffer).map ({ s with context := · })
      else some s) = some s') :
    s' = result.2 ∨ result.1 = .forward ∧ ∃ context,
      mapAnnouncedId result.2.context params buffer .wlBuffer = some context ∧
        s' = { result.2 with context } := by
  obtain ⟨s₁, hsettle, hmap⟩ := Option.bind_eq_some_iff.mp h'
  obtain ⟨-, rfl⟩ := settle_eq_some.mp hsettle
  by_cases hforward : result.1 = .forward
  · rw [if_pos hforward] at hmap
    obtain ⟨context, hannounce, rfl⟩ := Option.map_eq_some_iff.mp hmap
    exact .inr ⟨hforward, context, hannounce, rfl⟩
  · rw [if_neg hforward] at hmap
    exact .inl (Option.some.inj hmap).symm

/-- The session goes on as it does without descriptors. -/
theorem settle_context (s : DmabufSession) :
    s.settle.map (·.context) = Sommelier.settle s.context := by
  unfold settle Sommelier.settle
  split_ifs <;> rfl

theorem guarded_context (allowed : Bool) (next : Option DmabufSession) :
    (guarded allowed next).map (·.context) =
      Sommelier.guarded allowed (next.map (·.context)) := by
  unfold guarded Sommelier.guarded
  split_ifs <;> rfl

theorem deliver_context (s : DmabufSession) (senderId opcode : ℕ) (interface : Interface)
    (handle : DmabufSession → Option DmabufSession) (handle' : Context → Option Context)
    (hhandle : (handle s).map (·.context) = handle' s.context) :
    (s.deliver senderId opcode interface handle).map (·.context) =
      Sommelier.deliver s.context senderId opcode interface handle' := by
  unfold deliver Sommelier.deliver
  cases s.context.eventInterface senderId with
  | none => rfl
  | some name =>
    dsimp only
    split_ifs
    · rfl
    · rfl
    · exact hhandle

@[simp] theorem follow_context (s : DmabufSession) (context : Context) :
    (s.follow context).context = context := rfl

@[simp] theorem forwardDestroy_context (s : DmabufSession) (params : ℕ) :
    (s.forwardDestroy params).context = destroyPlain s.context params := by
  unfold forwardDestroy
  dsimp only
  split <;> rfl

theorem forwardCreateParams_context (s : DmabufSession) (factory params : ℕ) :
    (s.forwardCreateParams factory params).map (·.context) =
      mapNewId s.context factory params .zwpLinuxBufferParamsV1 := by
  unfold forwardCreateParams
  cases mapNewId s.context factory params .zwpLinuxBufferParamsV1 <;> rfl

/-- A request is one of the object system. -/
theorem step_request {c : Context} {m : Message} (hconf : hostConforms c m = true)
    (hevent : eventStep c m = none) : Sommelier.step maps c m = requestStep maps c m := by
  rw [Sommelier.step, if_pos hconf, hevent, Option.or_none]

theorem step_event {c : Context} {m : Message} (hrequest : requestStep maps c m = none) :
    Sommelier.step maps c m = Sommelier.guarded (hostConforms c m) (eventStep c m) := by
  rw [Sommelier.step, hrequest, Option.none_or]
  rfl

theorem bind_settle (result : Option (Action × Context)) :
    (result.bind fun r => Sommelier.settle r.2) = (result.map (·.2)).bind Sommelier.settle := by
  cases result <;> rfl

theorem bind_settle_context (result : Option (Action × DmabufSession)) :
    (result.bind fun r => r.2.settle).map (·.context) =
      (result.map (·.2.context)).bind Sommelier.settle := by
  cases result with
  | none => rfl
  | some r => exact settle_context r.2

/-- A buffer that is announced gets a guest ID, with descriptors or without. -/
theorem onCreated_step_context (s : DmabufSession) (params buffer : ℕ) :
    Option.map (·.context)
      (let (action, s) := s.onCreated params buffer
      s.settle.bind fun s =>
        if action = .forward then
          (mapAnnouncedId s.context params buffer .wlBuffer).map ({ s with context := · })
        else some s) =
      (let (action, c) := Sommelier.onCreated s.context params buffer
      (Sommelier.settle c).bind fun c =>
        if action = .forward then mapAnnouncedId c params buffer .wlBuffer else some c) := by
  rw [← onCreated_context]
  rcases s.onCreated params buffer with ⟨action, s'⟩
  dsimp only
  rw [← settle_context]
  cases hsettle : s'.settle with
  | none => rfl
  | some s'' =>
    dsimp only [Option.bind_some, Option.map_some]
    split_ifs
    · cases mapAnnouncedId s''.context params buffer .wlBuffer <;> rfl
    · rfl

/-- A message is handled as it is without descriptors. -/
theorem step_context {m : DmabufMessage} {m' : Message} (hm : m.message s = some m')
    (h' : s.step maps m = some s') : Sommelier.step maps s.context m' = some s'.context := by
  suffices hstep : (s.step maps m).map (·.context) = Sommelier.step maps s.context m' ∨
      ∃ t, m = .other t by
    rcases hstep with hstep | ⟨t, rfl⟩
    · rw [← hstep, h']
      rfl
    · obtain rfl := Option.some.inj hm
      obtain ⟨c, hc, rfl⟩ := Option.map_eq_some_iff.mp (guarded_eq_some.mp h').2
      exact hc
  cases m with
  | createParams factory params =>
    obtain rfl := Option.some.inj hm
    left
    rw [step_request rfl rfl, step, guarded_context, forwardCreateParams_context]
    rfl
  | add params fd param duplicated allocator =>
    by_cases hfd : fd < 0
    · simp [DmabufMessage.message, hfd] at hm
    · simp only [DmabufMessage.message, hfd, if_false, Option.some.injEq] at hm
      subst hm
      left
      rw [step_request rfl rfl, step, guarded_context, settle_context,
        onAdd_context _ (Int.not_lt.mp hfd)]
      rfl
  | create params width height format flags dups =>
    obtain rfl := Option.some.inj hm
    left
    rw [step_request rfl rfl, step, guarded_context, settle_context, onCreate_context]
    rfl
  | createImmed params buffer width height format flags dups =>
    obtain rfl := Option.some.inj hm
    left
    rw [step_request rfl rfl, step, guarded_context, bind_settle_context, onCreateImmed_context,
      ← bind_settle]
    rfl
  | destroyParams params =>
    obtain rfl := Option.some.inj hm
    left
    rw [step_request rfl rfl, step, guarded_context, settle_context, forwardDestroy_context,
      onDestroy_context]
    rfl
  | created params buffer =>
    obtain rfl := Option.some.inj hm
    left
    rw [step_event rfl, step, guarded_context, eventStep]
    refine congrArg _ (deliver_context s _ _ _ _ _ ?_)
    rw [guarded_context]
    exact congrArg _ (onCreated_step_context s params buffer)
  | failed params =>
    obtain rfl := Option.some.inj hm
    left
    rw [step_event rfl, step, guarded_context, eventStep]
    refine congrArg _ (deliver_context s _ _ _ _ _ ?_)
    rw [settle_context, ← onFailed_context]
  | other m => exact .inr ⟨m, rfl⟩
  | flush => cases hm

theorem step_context_none {m : DmabufMessage} (hm : m.message s = none)
    (h' : s.step maps m = some s') : s'.context = s.context := by
  cases m with
  | add params fd param duplicated allocator =>
    have hfd : fd < 0 := by
      by_contra hpos
      simp [DmabufMessage.message, hpos] at hm
    obtain ⟨-, hsettle⟩ := guarded_eq_some.mp h'
    obtain ⟨-, rfl⟩ := settle_eq_some.mp hsettle
    simp [onAdd, hfd]
  | flush =>
    obtain rfl := Option.some.inj h'
    rfl
  | _ => cases hm

end DmabufSession

open DmabufSession

variable {maps : DamageMapping} {s s' : DmabufSession}

/-- One more message keeps the session one of the object system. -/
theorem follow_reachable {m : DmabufMessage} (hreach : (objectSystem maps).Reachable s.context)
    (hstep : s.step maps m = some s') : (objectSystem maps).Reachable s'.context := by
  cases hm : m.message s with
  | none =>
    rw [step_context_none hm hstep]
    exact hreach
  | some m' => exact hreach.step trivial (step_context hm hstep)

/-- Without descriptors every session is one of the object system. -/
theorem dmabufSystem_refines (hs : (dmabufSystem maps).Reachable s) :
    (objectSystem maps).Reachable s.context := by
  refine hs.invariant (I := fun s => (objectSystem maps).Reachable s.context) ?_ ?_
  · rintro s rfl
    exact .init rfl
  · intro s m s' _ hreach _ hstep
    exact follow_reachable hreach hstep

end Sommelier
