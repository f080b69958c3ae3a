import Sommelier.Generated.Dispatch
import Sommelier.Globals.Effects
import Sommelier.Proxy.Attribution

/-!
# Handlers and the ends of batches

The operations at the ends of a batch change the outgoing queues, the clipboard pumps and the
set of feedback objects refreshed in the batch. Handlers that look at none of these decide the
same in whatever batch a message comes. The reports of the host's formats are the only events
whose handler reads that set, and what it decides from it is only what it sends to the guest.

## Main definitions

* `Handlers.Blind`: handlers that do not see the ends of batches.
* `SommelierHandler.Blind`: the same for the handlers behind the generated code.
* `dmabufReports`: the handlers of the host's format reports.
-/
namespace Sommelier

section
variable {σ τ : Type} {H : Handlers σ} {o : ByteOrder} {d : Direction} {visible : σ → τ} {c c' : σ}

/-- Two dispatches with the same outcome, up to what is not visible of the context. -/
structure Dispatched.Agrees (visible : σ → τ) (r r' : Dispatched σ) : Prop where
  ctx : visible r.ctx = visible r'.ctx
  offset : r.offset = r'.offset
  fdOffset : r.fdOffset = r'.fdOffset
  result : r.result = r'.result

/-- Only the visible part of a context matters to the handlers. The outgoing queues, the
clipboard pumps and the feedback objects refreshed in this batch are not part of it. -/
structure Handlers.Blind (H : Handlers σ) (visible : σ → τ) : Prop where
  reap : ∀ c, visible (H.reapClipboardPumps c) = visible c
  clear : ∀ c, visible (H.clearFeedbackRefreshPending c) = visible c
  takeQueue : ∀ d c, visible (H.takeQueue d c).2 = visible c
  getGuestId : ∀ {c c'}, visible c = visible c' → H.getGuestId c = H.getGuestId c'
  getInterface : ∀ {c c'}, visible c = visible c' → H.getInterface c = H.getInterface c'
  getHostInterface : ∀ {c c'}, visible c = visible c' →
    H.getHostInterface c = H.getHostInterface c'
  stale : ∀ {c c'}, visible c = visible c' →
    H.pendingHostEventIsStale c = H.pendingHostEventIsStale c'
  fatal : ∀ {c c'}, visible c = visible c' → H.fatalProtocolError c = H.fatalProtocolError c'
  setLastSenderId : ∀ {c c'}, visible c = visible c' → ∀ id,
    visible (H.setLastSenderId c id) = visible (H.setLastSenderId c' id)
  dispatchRequest : ∀ {c c'}, visible c = visible c' → ∀ i msg,
    (H.dispatchRequest c i msg).Agrees visible (H.dispatchRequest c' i msg)
  dispatchEvent : ∀ {c c'}, visible c = visible c' → ∀ i msg,
    (H.dispatchEvent c i msg).Agrees visible (H.dispatchEvent c' i msg)

theorem Dispatched.Agrees.checked {r r' : Dispatched σ} (h : r.Agrees visible r') (n : ℕ) :
    (if r.offset = n then r else { r with result := .error .trailingData }).Agrees visible
      (if r'.offset = n then r' else { r' with result := .error .trailingData }) := by
  by_cases hread : r'.offset = n
  · rwa [if_pos hread, if_pos (h.offset.trans hread)]
  · rw [if_neg hread, if_neg (h.offset ▸ hread)]
    exact ⟨h.ctx, h.offset, h.fdOffset, rfl⟩

theorem Handlers.Blind.dispatchTracked (hb : H.Blind visible) (h : visible c = visible c')
    (i : String) (stale : Bool) (msg : WireMessage) :
    (dispatchTracked H d c i stale msg).Agrees visible (dispatchTracked H d c' i stale msg) := by
  have hset := hb.setLastSenderId h msg.senderId
  cases d with
  | clientToHost => exact (hb.dispatchRequest hset i msg).checked _
  | hostToClient =>
    cases stale with
    | true =>
      let read := H.consumeEvent i msg
      let skipped := fun c => (⟨H.setLastSenderId c msg.senderId, read.offset, read.fdOffset,
        read.result.map fun _ => none⟩ : Dispatched σ)
      have hskipped : (skipped c).Agrees visible (skipped c') := ⟨hset, rfl, rfl, rfl⟩
      exact hskipped.checked _
    | false => exact (hb.dispatchEvent hset i msg).checked _

/-! ## Behind the generated code -/

/-- The same laws for the handlers of decoded messages. -/
structure SommelierHandler.Blind (H : SommelierHandler σ) (visible : σ → τ) : Prop where
  reap : ∀ c, visible (H.reapClipboardPumps c) = visible c
  clear : ∀ c, visible (H.clearFeedbackRefreshPending c) = visible c
  takeQueue : ∀ d c, visible (H.takeQueue d c).2 = visible c
  shadowTable : ∀ {c c'}, visible c = visible c' → H.shadowTable c = H.shadowTable c'
  stale : ∀ {c c'}, visible c = visible c' →
    H.pendingHostEventIsStale c = H.pendingHostEventIsStale c'
  fatal : ∀ {c c'}, visible c = visible c' → H.fatalProtocolError c = H.fatalProtocolError c'
  setLastSenderId : ∀ {c c'}, visible c = visible c' → ∀ id,
    visible (H.setLastSenderId c id) = visible (H.setLastSenderId c' id)
  on : ∀ {c c'}, visible c = visible c' → ∀ d i senderId opcode decoded,
    visible (H.on d c i senderId opcode decoded).1 =
        visible (H.on d c' i senderId opcode decoded).1 ∧
      (H.on d c i senderId opcode decoded).2 = (H.on d c' i senderId opcode decoded).2

namespace SommelierHandler.Blind
variable {H : SommelierHandler σ}

theorem decodeAndHandle (hb : H.Blind visible) (h : visible c = visible c') (d : Direction)
    (protocol : Protocol) (i : String) (msg : WireMessage) :
    (H.decodeAndHandle o d protocol c i msg).Agrees visible
      (H.decodeAndHandle o d protocol c' i msg) := by
  unfold SommelierHandler.decodeAndHandle
  cases fromWire o (protocol.schema.messages d) msg with
  | error e => exact ⟨h, rfl, rfl, rfl⟩
  | ok read =>
    obtain ⟨hctx, hresult⟩ := hb.on h d i msg.senderId msg.opcode read.1
    exact ⟨hctx, rfl, rfl, hresult⟩

theorem handlers (hb : H.Blind visible) : (H.handlers o).Blind visible where
  reap := hb.reap
  clear := hb.clear
  takeQueue := hb.takeQueue
  getGuestId h := by simp only [SommelierHandler.handlers, hb.shadowTable h]
  getInterface h := by simp only [SommelierHandler.handlers, hb.shadowTable h]
  getHostInterface h := by simp only [SommelierHandler.handlers, hb.shadowTable h]
  stale := hb.stale
  fatal := hb.fatal
  setLastSenderId := hb.setLastSenderId
  dispatchRequest h i msg := by
    simp only [SommelierHandler.handlers, SommelierHandler.dispatchRequest]
    split
    · exact ⟨h, rfl, rfl, rfl⟩
    · split_ifs
      · exact ⟨h, rfl, rfl, rfl⟩
      · exact hb.decodeAndHandle h ..
  dispatchEvent h i msg := by
    simp only [SommelierHandler.handlers, SommelierHandler.dispatchEvent, hb.shadowTable h]
    split
    · exact ⟨h, rfl, rfl, rfl⟩
    · split_ifs
      · exact ⟨h, rfl, rfl, rfl⟩
      · exact ⟨h, rfl, rfl, rfl⟩
      · exact hb.decodeAndHandle h ..

end SommelierHandler.Blind
end

/-! ## Reports of formats -/

namespace GlobalContext

/-- What later messages depend on. -/
def settled (c : GlobalContext) : GlobalContext :=
  { c with syntheticFeedbackRefreshPending := ∅, guestEvents := [], hostRequests := [] }

/-- An operation that does not read what is not settled. -/
def Settles (f : GlobalContext → GlobalContext) : Prop := ∀ c, (f c).settled = (f c.settled).settled

variable {c c' : GlobalContext} {f g : GlobalContext → GlobalContext}

theorem Settles.agrees (hf : Settles f) (h : c.settled = c'.settled) :
    (f c).settled = (f c').settled := by
  rw [hf c, h, ← hf c']

theorem Settles.comp (hg : Settles g) (hf : Settles f) : Settles (g ∘ f) := fun c =>
  hg.agrees (hf c)

theorem settles_foldl {α : Type} {f : GlobalContext → α → GlobalContext}
    (hf : ∀ a, Settles (f · a)) (as : List α) : Settles (as.foldl f) := by
  induction as with
  | nil => exact fun _ => rfl
  | cons a as ih => exact ih.comp (hf a)

theorem settles_advertiseShmFormat (format guestId : ℕ) :
    Settles (advertiseShmFormat format · guestId) := by
  intro c
  have hstale : c.settled.staleShmGuestObjects = c.staleShmGuestObjects := rfl
  have havailable : c.settled.guestShmFormatAvailable format = c.guestShmFormatAvailable format :=
    rfl
  have hformats : c.settled.shmGuestFormats = c.shmGuestFormats := rfl
  simp only [advertiseShmFormat, hstale, havailable, hformats]
  split_ifs
  · rfl
  · cases c.shmGuestFormats.get guestId with
    | none => rfl
    | some advertised =>
      dsimp only
      split_ifs <;> rfl

theorem settles_recordHostShmFormat (format : ℕ) : Settles (recordHostShmFormat · format) := by
  intro c
  have hformats : c.settled.hostShmFormats = c.hostShmFormats := rfl
  simp only [recordHostShmFormat, hformats]
  split_ifs
  · rfl
  · exact settles_foldl (settles_advertiseShmFormat format) _ _

theorem settles_recordHostShmDrmFormat (format : ℕ) :
    Settles (recordHostShmDrmFormat · format) := by
  intro c
  dsimp only [recordHostShmDrmFormat]
  cases shmFormatFromDrm format with
  | none => rfl
  | some shmFormat => exact settles_recordHostShmFormat shmFormat _

theorem settles_recordPair (c : GlobalContext) (pair : ℕ × ℕ) :
    (c.recordPair pair).2.settled = (c.settled.recordPair pair).2.settled ∧
      (c.recordPair pair).1 = (c.settled.recordPair pair).1 := by
  have hgeneration : c.settled.hostDmabufGeneration = c.hostDmabufGeneration := rfl
  have hcapabilities : c.settled.dmabufCapabilities = c.dmabufCapabilities := rfl
  simp only [recordPair, hgeneration, hcapabilities]
  cases c.hostDmabufGeneration with
  | none => exact ⟨rfl, rfl⟩
  | some generation =>
    dsimp only
    split_ifs
    · exact ⟨rfl, rfl⟩
    · exact ⟨rfl, rfl⟩

/-! ### New tables -/

/-- The pairs of a table are bounded, and a supported pair is in it unless it is full. -/
theorem foldl_feedbackPairs (pairs acc : List (ℕ × ℕ)) (hacc : acc.length ≤ maxFeedbackFormats) :
    let table := pairs.foldl (fun pairs pair =>
      if isSupportedDrmFormat pair.1 && !pairs.contains pair &&
          decide (pairs.length < maxFeedbackFormats) then pairs ++ [pair]
      else pairs) acc
    table.length ≤ maxFeedbackFormats ∧
      ((acc ≠ [] ∨ ∃ pair ∈ pairs, isSupportedDrmFormat pair.1 = true) → table ≠ []) := by
  induction pairs generalizing acc with
  | nil => simpa using hacc
  | cons pair pairs ih =>
    rw [List.foldl_cons]
    split_ifs with hnew
    · simp only [Bool.and_eq_true, decide_eq_true_eq] at hnew
      obtain ⟨hlength, hne⟩ := ih (acc ++ [pair]) (by simpa [Nat.succ_le_iff] using hnew.2)
      exact ⟨hlength, fun _ => hne (.inl (by simp))⟩
    · obtain ⟨hlength, hne⟩ := ih acc hacc
      refine ⟨hlength, fun h => hne ?_⟩
      by_cases hempty : acc = []
      · subst hempty
        simp only [ne_eq, not_true_eq_false, List.mem_cons, exists_eq_or_imp, false_or] at h
        refine .inr (h.resolve_left fun hsupported => hnew ?_)
        simp [hsupported, maxFeedbackFormats]
      · exact .inl hempty

/-- With an allocator a table can be made for a generation that has a supported pair. -/
theorem queueSyntheticFeedback_of_supported {generation : ℕ} {capabilities : DmabufCapabilityState}
    {pair : ℕ × ℕ} (hallocator : c.options.allocator = true)
    (h : c.dmabufCapabilities.get generation = some capabilities)
    (hpair : pair ∈ capabilities.formatModifiers) (hsupported : isSupportedDrmFormat pair.1 = true)
    (guestId : ℕ) :
    c.queueSyntheticFeedback true guestId generation =
      some (c.sendGuest (.feedback guestId (c.feedbackPairs generation))) := by
  have htable := foldl_feedbackPairs capabilities.formatModifiers [] (Nat.zero_le _)
  have hpairs : (c.feedbackPairs generation).length ≤ maxFeedbackFormats ∧
      c.feedbackPairs generation ≠ [] := by
    simp only [feedbackPairs, h]
    exact ⟨htable.1, htable.2 (.inr ⟨pair, hpair, hsupported⟩)⟩
  unfold queueSyntheticFeedback
  exact if_pos (by simp [hallocator, hpairs])

/-- New tables settle as no tables, however many objects had one in this batch. -/
theorem settled_refreshFeedbacks {generation : ℕ} {capabilities : DmabufCapabilityState}
    {pair : ℕ × ℕ} (hpair : pair ∈ capabilities.formatModifiers)
    (hsupported : isSupportedDrmFormat pair.1 = true) (guestIds : List ℕ) {c : GlobalContext}
    (hallocator : c.options.allocator = true)
    (h : c.dmabufCapabilities.get generation = some capabilities) :
    (refreshFeedbacks true generation guestIds c).settled = c.settled := by
  induction guestIds generalizing c with
  | nil => rfl
  | cons guestId guestIds ih =>
    unfold refreshFeedbacks
    split_ifs
    · exact ih hallocator h
    · dsimp only
      rw [queueSyntheticFeedback_of_supported (by exact hallocator) (by exact h) hpair hsupported]
      exact ih hallocator h

theorem settled_refreshSyntheticFeedbacks {generation : ℕ} {capabilities : DmabufCapabilityState}
    {pair : ℕ × ℕ} (hpair : pair ∈ capabilities.formatModifiers)
    (hsupported : isSupportedDrmFormat pair.1 = true) (hallocator : c.options.allocator = true)
    (hgeneration : c.hostDmabufGeneration = some generation)
    (h : c.dmabufCapabilities.get generation = some capabilities) :
    (c.refreshSyntheticFeedbacks true).settled = c.settled := by
  unfold refreshSyntheticFeedbacks
  simp only [hgeneration]
  split_ifs
  · exact settled_refreshFeedbacks hpair hsupported _ hallocator h
  · rfl

theorem recordPair_new {pair : ℕ × ℕ} (h : (c.recordPair pair).1 = true) :
    ∃ generation capabilities, (c.recordPair pair).2.hostDmabufGeneration = some generation ∧
      (c.recordPair pair).2.dmabufCapabilities.get generation = some capabilities ∧
      pair ∈ capabilities.formatModifiers := by
  unfold recordPair at h ⊢
  cases hgeneration : c.hostDmabufGeneration with
  | none => simp [hgeneration] at h
  | some generation =>
    simp only [hgeneration] at h ⊢
    split_ifs at h with hnew
    rw [if_pos hnew]
    refine ⟨generation, _, rfl, (Table.get_set ..).trans (if_pos rfl), ?_⟩
    exact List.mem_append_right _ (List.mem_singleton_self pair)

/-- A recorded report settles as its record. -/
theorem settled_refresh_recordPair {pair : ℕ × ℕ} (hallocator : c.options.allocator = true)
    (hsupported : isSupportedDrmFormat pair.1 = true) :
    (if (c.recordPair pair).1 then (c.recordPair pair).2.refreshSyntheticFeedbacks true
      else (c.recordPair pair).2).settled = (c.recordPair pair).2.settled := by
  split_ifs with hnew
  · obtain ⟨generation, capabilities, hgeneration, hget, hpair⟩ := recordPair_new hnew
    refine settled_refreshSyntheticFeedbacks hpair hsupported ?_ hgeneration hget
    rwa [(aside_recordPair c pair).options]
  · rfl

/-- What a report decides does not depend on what is not settled. -/
theorem settled_onReport (h : c.settled = c'.settled) (hallocator : c.options.allocator = true)
    (hostId format modifier : ℕ) :
    (c.onReport true hostId format modifier).2.settled =
        (c'.onReport true hostId format modifier).2.settled ∧
      (c.onReport true hostId format modifier).1 = (c'.onReport true hostId format modifier).1 := by
  have hown : c.hostDmabufId = c'.hostDmabufId := congrArg (·.hostDmabufId) h
  have htable : c.shadowTable = c'.shadowTable := congrArg (·.shadowTable) h
  have hoptions : c.options = c'.options := congrArg (·.options) h
  unfold onReport
  rw [hown, htable]
  split_ifs with hunsupported hreport
  · exact ⟨h, rfl⟩
  · have hsupported : isSupportedDrmFormat format = true := by simpa using hunsupported
    have hrecorded : ∀ c : GlobalContext, c.options.allocator = true →
        (c.recordHostShmDrmFormat format).options.allocator = true := fun c hc =>
      (congrArg (·.allocator) (aside_recordHostShmDrmFormat c format).options).trans hc
    refine ⟨?_, rfl⟩
    dsimp only
    rw [settled_refresh_recordPair (hrecorded c hallocator) hsupported,
      settled_refresh_recordPair (hrecorded c' (hoptions ▸ hallocator)) hsupported,
      (settles_recordPair _ _).1, (settles_recordHostShmDrmFormat format).agrees h,
      ← (settles_recordPair _ _).1]
  · exact ⟨h, rfl⟩
  · exact ⟨h, rfl⟩

end GlobalContext

/-- A session whose proxy can make tables. -/
abbrev AcceleratedContext := { c : GlobalContext // c.options.allocator = true }

def linuxDmabufEvents : List (MessageSchema .hostToClient) :=
  [{ since := none, args := [.uint], destructor := false },
    { since := some 3, args := [.uint, .uint, .uint], destructor := false }]

/-- The unsigned arguments of a message. -/
def uintArgs {d : Direction} : (args : List (ArgType d)) → ArgValues args → List ℕ
  | [], _ => []
  | .uint :: args, (v, vs) => v :: uintArgs args vs
  | _ :: args, (_, vs) => uintArgs args vs

/-- The handler of a format report, on its decoded arguments. -/
def onDmabufEvent (c : GlobalContext) (senderId : ℕ) : ℕ → List ℕ → Action × GlobalContext
  | 0, [format] => c.onFormat true senderId format
  | 1, [format, modifierHi, modifierLo] => c.onModifier true senderId format modifierHi modifierLo
  | _, _ => (.drop, c)

/-- What the generated code does with a report. -/
def handleDmabufEvent (o : ByteOrder) (c : GlobalContext) (senderId opcode : ℕ)
    (decoded : Decoded .hostToClient) : GlobalContext × Except ProtocolError (Option Packet) :=
  let table := c.shadowTable
  match checkSince table decoded.1.since (table.hostObjectVersion senderId) senderId with
  | .error (.rejected e _) => (c, .error e)
  | .error _ => (c, .ok none)
  | .ok () =>
    match onDmabufEvent c senderId opcode (uintArgs decoded.1.args decoded.2) with
    | (.drop, c) => (c, .ok none)
    | (.forward, c) =>
      match table.getGuestId senderId with
      | none => (c, .ok none)
      | some guestId =>
        (c, (buildMessage o decoded.1.args decoded.2 guestId opcode).map some)

section
variable {c c' : GlobalContext} {o : ByteOrder}

theorem options_onDmabufEvent (c : GlobalContext) (senderId opcode : ℕ) (args : List ℕ) :
    (onDmabufEvent c senderId opcode args).2.options = c.options := by
  unfold onDmabufEvent
  split
  · exact (GlobalContext.aside_onReport ..).options
  · exact (GlobalContext.aside_onReport ..).options
  · rfl

theorem options_handleDmabufEvent (c : GlobalContext) (senderId opcode : ℕ)
    (decoded : Decoded .hostToClient) :
    (handleDmabufEvent o c senderId opcode decoded).1.options = c.options := by
  have hoptions := options_onDmabufEvent c senderId opcode (uintArgs decoded.1.args decoded.2)
  unfold handleDmabufEvent
  dsimp only
  split
  · rfl
  · rfl
  · split
    · next hhandled =>
      rw [hhandled] at hoptions
      exact hoptions
    · next hhandled =>
      rw [hhandled] at hoptions
      split <;> exact hoptions

theorem settled_onDmabufEvent (h : c.settled = c'.settled) (hallocator : c.options.allocator = true)
    (senderId opcode : ℕ) (args : List ℕ) :
    (onDmabufEvent c senderId opcode args).2.settled =
        (onDmabufEvent c' senderId opcode args).2.settled ∧
      (onDmabufEvent c senderId opcode args).1 = (onDmabufEvent c' senderId opcode args).1 := by
  unfold onDmabufEvent
  split
  · exact GlobalContext.settled_onReport h hallocator ..
  · exact GlobalContext.settled_onReport h hallocator ..
  · exact ⟨h, rfl⟩

theorem settled_handleDmabufEvent (h : c.settled = c'.settled)
    (hallocator : c.options.allocator = true) (senderId opcode : ℕ)
    (decoded : Decoded .hostToClient) :
    (handleDmabufEvent o c senderId opcode decoded).1.settled =
        (handleDmabufEvent o c' senderId opcode decoded).1.settled ∧
      (handleDmabufEvent o c senderId opcode decoded).2 =
        (handleDmabufEvent o c' senderId opcode decoded).2 := by
  have htable : c.shadowTable = c'.shadowTable := congrArg (·.shadowTable) h
  have hhandled := settled_onDmabufEvent h hallocator senderId opcode
    (uintArgs decoded.1.args decoded.2)
  simp only [handleDmabufEvent, htable]
  cases checkSince c'.shadowTable decoded.1.since (c'.shadowTable.hostObjectVersion senderId)
      senderId with
  | error halt => cases halt <;> exact ⟨h, rfl⟩
  | ok =>
    rcases hleft : onDmabufEvent c senderId opcode (uintArgs decoded.1.args decoded.2) with ⟨a, b⟩
    rcases hright : onDmabufEvent c' senderId opcode (uintArgs decoded.1.args decoded.2) with
      ⟨a', b'⟩
    simp only [hleft, hright] at hhandled ⊢
    obtain ⟨hctx, rfl⟩ := hhandled
    cases a with
    | drop => exact ⟨hctx, rfl⟩
    | forward => cases c'.shadowTable.getGuestId senderId <;> exact ⟨hctx, rfl⟩

end

/-- The handlers of the reports the host sends to dma-buf objects, whose tables can always be
made. -/
def dmabufReports (o : ByteOrder) : SommelierHandler AcceleratedContext where
  shadowTable c := c.1.shadowTable
  interfaceName interface := if interface = .zwpLinuxDmabufV1 then "zwp_linux_dmabuf_v1" else ""
  classifyInterface name :=
    if name = "zwp_linux_dmabuf_v1" then
      some { schema := ⟨[], linuxDmabufEvents⟩, aura := false, aura_fdCount := nofun }
    else none
  on
    | .clientToHost, c, _, _, _, _ => (c, .ok none)
    | .hostToClient, c, _, senderId, opcode, decoded =>
      let handled := handleDmabufEvent o c.1 senderId opcode decoded
      (⟨handled.1, by rw [options_handleDmabufEvent]; exact c.2⟩, handled.2)
  pendingHostEventIsStale c senderId _ _ := c.1.shadowTable.isPendingDestroyHost senderId
  setLastSenderId c _ := c
  fatalProtocolError c := c.1.fatalProtocolError
  takeQueue _ c := ([], c)
  reapClipboardPumps c := c
  clearFeedbackRefreshPending c := ⟨{ c.1 with syntheticFeedbackRefreshPending := ∅ }, c.2⟩
  shadowTable_setLastSenderId _ _ := rfl

/-- The reports are decided alike in all batches. -/
theorem dmabufReports_blind (o : ByteOrder) :
    (dmabufReports o).Blind fun c => GlobalContext.settled c.1 where
  reap _ := rfl
  clear _ := rfl
  takeQueue _ _ := rfl
  shadowTable h := by
    have htable := congrArg GlobalContext.shadowTable h
    exact htable
  stale h := by
    have htable := congrArg GlobalContext.shadowTable h
    funext senderId _ _
    exact congrArg (·.isPendingDestroyHost senderId) htable
  fatal h := by
    have hfatal := congrArg GlobalContext.fatalProtocolError h
    exact hfatal
  setLastSenderId h _ := h
  on {c _} h d _ senderId opcode decoded := by
    cases d with
    | clientToHost => exact ⟨h, rfl⟩
    | hostToClient => exact settled_handleDmabufEvent h c.2 senderId opcode decoded

end Sommelier
