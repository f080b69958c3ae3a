import Sommelier.Generated.Translation

/-!
# Forwarded messages

The generated dispatch against the meaning of a translation: what the validations let
through, what the translation of an argument list leaves in the shadow table, and when the
message that is sent on is the translation of the one that came in.

## Main definitions

* `ArgAccepted`: what the validations establish about an argument.
* `ForwardedAs`: everything a dispatch that forwards a message went through.
* `WellNamed`: the messages whose IDs the generated code handles.
-/
namespace Sommelier
variable {d : Direction} {t t' t₀ : ShadowTable}

/-! ## Validations -/

/-- What the validations establish about a non-null object. -/
structure ObjectAccepted (d : Direction) (t : ShadowTable) (interface : Option Interface)
    (id : ℕ) : Prop where
  inUse : ¬ t.Available d id
  interface_eq : ∀ i, interface = some i → t.HasInterface d id i
  live : (d = .hostToClient → interface ≠ none) → ¬ t.Doomed d id

/-- What the validations establish about an argument. -/
def ArgAccepted (t : ShadowTable) : (a : ArgType d) → a.Value → Prop
  | .object interface allowNull, id =>
    (allowNull = true ∧ id = (0 : ℕ)) ∨ ObjectAccepted d t interface id
  | .newId _, id => t.Available d id
  | .newIdAny, (_, _, id) => t.Available d id
  | _, _ => True

theorem objectAccepted_of_request {interface : Option Interface} {id : ℕ}
    (h : invalidRequestObject t interface id = false) :
    ObjectAccepted .clientToHost t interface id := by
  cases interface with
  | none =>
    simp only [invalidRequestObject, Bool.or_eq_false_iff, ShadowTable.isPendingDestroyGuest,
      decide_eq_false_iff_not, ShadowTable.getHostId] at h
    refine ⟨fun ha => ?_, by simp, fun _ => h.1⟩
    have hnone : t.guestToHost.get id = none := ha.image_eq_none
    simp [hnone] at h
  | some interface =>
    simp only [invalidRequestObject, Bool.or_eq_false_iff, ShadowTable.isPendingDestroyGuest,
      decide_eq_false_iff_not, ShadowTable.guestObjectMatches, Bool.not_eq_false',
      beq_iff_eq] at h
    obtain ⟨⟨hlive, hi⟩, -⟩ := h
    refine ⟨fun ha => ?_, ?_, fun _ => hlive⟩
    · simp [ShadowTable.Available, ShadowTable.isGuestIdAvailable, hi] at ha
    · rintro i ⟨⟩
      exact hi

theorem objectAccepted_of_event {interface : Option Interface} {id : ℕ}
    (h : invalidEventObject t interface id = false) :
    ObjectAccepted .hostToClient t interface id := by
  have hinUse : (t.getGuestId id).isNone = false → ¬ t.Available .hostToClient id := by
    intro hsome ha
    have hnone : t.hostToGuest.get id = none := ha.image_eq_none
    simp [ShadowTable.getGuestId, hnone] at hsome
  cases interface with
  | none => exact ⟨hinUse h, by simp, fun hne => absurd rfl (hne rfl)⟩
  | some interface =>
    simp only [invalidEventObject, Bool.or_eq_false_iff, ShadowTable.isPendingDestroyHost,
      ShadowTable.hostObjectMatches, Bool.not_eq_false'] at h
    obtain ⟨⟨hlive, hi⟩, hmapped⟩ := h
    refine ⟨hinUse hmapped, ?_, ?_⟩
    · rintro i ⟨⟩
      simpa [ShadowTable.HasInterface, Option.any_eq_true] using hi
    · rintro - ⟨g, hg, hdoomed⟩
      simp [hg, ShadowTable.isPendingDestroyGuest, hdoomed] at hlive

theorem null_or_valid {allowNull invalid : Bool} {id : ℕ}
    (h : ¬ ((!allowNull || id != 0) && invalid) = true) :
    (allowNull = true ∧ id = 0) ∨ invalid = false := by
  cases allowNull <;> cases invalid <;> simp_all

theorem argAccepted_of_request {a : ArgType .clientToHost} {v : a.Value}
    (h : validateRequestArg t a v = .ok ()) : ArgAccepted t a v := by
  cases a with
  | object interface allowNull =>
    simp only [validateRequestArg, checkRequestObject] at h
    split_ifs at h with hc
    exact (null_or_valid hc).imp_right objectAccepted_of_request
  | newId interface =>
    simp only [validateRequestArg, checkGuestNewId] at h
    split_ifs at h with hc
    exact hc
  | newIdAny =>
    obtain ⟨name, version, id⟩ := v
    simp only [validateRequestArg, checkGuestNewId] at h
    split_ifs at h with hc
    exact hc
  | int | uint | fixed | string | array | fd => trivial

theorem argAccepted_of_event {a : ArgType .hostToClient} {v : a.Value}
    (h : validateEventArg t a v = .ok ()) : ArgAccepted t a v := by
  cases a with
  | object interface allowNull =>
    simp only [validateEventArg, checkEventObject] at h
    split_ifs at h with hc
    exact (null_or_valid hc).imp_right objectAccepted_of_event
  | newId interface =>
    simp only [validateEventArg, checkHostNewId] at h
    split_ifs at h with hc
    exact hc
  | int | uint | fixed | string | array | fd => trivial

/-! ## Translation of the arguments -/

theorem newlyMapped_of_mapNewIdArg {senderId id id' : ℕ} {i : Interface}
    (h : mapNewIdArg d senderId i id t = .ok (id', t')) : NewlyMapped d t t' id id' := by
  cases d with
  | clientToHost => exact newlyMapped_newHostObject h
  | hostToClient => exact newlyMapped_newGuestObject h

theorem mapObject_eq_ok {allowNull : Bool} {id id' : ℕ}
    (h : mapObject d allowNull id t = .ok (id', t')) : t' = t ∧
      if allowNull = true ∧ id = 0 then id' = 0 else (t.image d).get id = some id' := by
  unfold mapObject at h
  by_cases hnull : allowNull = true ∧ id = 0
  · simp only [hnull.1, hnull.2, beq_self_eq_true, Bool.and_self, if_true, Except.ok.injEq,
      Prod.mk.injEq] at h
    simp [hnull, ← h.1, ← h.2]
  · have hc : ¬ (allowNull && id == 0) = true := by simpa using hnull
    rw [if_neg hc] at h
    cases hid : (t.image d).get id with
    | none => simp [hid] at h
    | some image =>
      simp only [hid, Except.ok.injEq, Prod.mk.injEq] at h
      simp [hnull, h.1, ← h.2]

/-- Outside of the IDs that were available, the images are those of `t₀`. -/
def ImagesAgree (d : Direction) (t₀ t : ShadowTable) : Prop :=
  ∀ x, ¬ t₀.Available d x → (t.image d).get x = (t₀.image d).get x

theorem objectTranslated {interface : Option Interface} {allowNull : Bool} {id id' : ℕ}
    (hmap : if allowNull = true ∧ id = 0 then id' = 0 else (t.image d).get id = some id')
    (hagree : ImagesAgree d t₀ t)
    (hok : (allowNull = true ∧ id = 0) ∨ ObjectAccepted d t₀ interface id)
    (hlive : UntypedObjectLive d t₀ interface allowNull id) :
    ObjectTranslated d t₀ interface allowNull id id' := by
  unfold ObjectTranslated
  by_cases hnull : allowNull = true ∧ id = 0
  · simpa [hnull] using hmap
  · rw [if_neg hnull] at hmap ⊢
    have hacc := hok.resolve_left hnull
    rw [hagree id hacc.inUse] at hmap
    refine ⟨hmap, by simp [hmap], ?_, hacc.interface_eq⟩
    by_cases huntyped : d = .hostToClient ∧ interface = none
    · exact (hlive huntyped.1 huntyped.2).resolve_left hnull
    · exact hacc.live fun hd hi => huntyped ⟨hd, hi⟩

/-- An argument that introduces no ID leaves the table as it is, one that does maps it. -/
theorem mapArg_cases {senderId : ℕ} {a : ArgType d} {v w : a.Value}
    (h : mapArg senderId a v t = .ok (w, t')) :
    (a.newIds v = [] ∧ t' = t ∧ ∀ t₀ tf, ImagesAgree d t₀ t → ArgAccepted t₀ a v →
      ArgUntypedLive t₀ a v → ArgTranslated t₀ tf a v w) ∨
    ∃ id id', a.newIds v = [id] ∧ NewlyMapped d t t' id id' ∧
      (∀ t₀, ArgAccepted t₀ a v → t₀.Available d id) ∧
      ∀ t₀ tf, ArgTranslated t₀ tf a v w ↔ NewPartner d t₀ tf id id' := by
  cases a with
  | object interface allowNull =>
    obtain ⟨rfl, hmap⟩ := mapObject_eq_ok h
    exact .inl ⟨rfl, rfl, fun _ _ hagree hok hlive => objectTranslated hmap hagree hok hlive⟩
  | newId interface =>
    exact .inr ⟨v, w, rfl, newlyMapped_of_mapNewIdArg h, fun _ ha => ha, fun _ _ => Iff.rfl⟩
  | newIdAny =>
    obtain ⟨name, version, id⟩ := v
    simp only [mapArg] at h
    cases hnew : newHostObject id (.ofName name) version version t with
    | error e => simp [hnew, Except.map] at h
    | ok r =>
      obtain ⟨hostId, t₁⟩ := r
      simp only [hnew, Except.map, Except.ok.injEq] at h
      cases h
      exact .inr ⟨id, hostId, rfl, newlyMapped_newHostObject hnew, fun _ ha => ha,
        fun _ _ => by simp [ArgTranslated]⟩
  | int | uint | fixed | string | array | fd =>
    cases h
    exact .inl ⟨rfl, rfl, fun _ _ _ _ _ => rfl⟩

theorem NewlyMapped.keeps {id id' x y : ℕ} (hm : NewlyMapped d t t' id id') (hx : x ≠ id)
    (hp : t.IsPair d x y) : t'.IsPair d x y := by
  have hy : y ≠ id' := by
    rintro rfl
    simpa [hp.2] using hm.free.back
  refine ⟨by rw [hm.image_other x hx, hp.1], ?_⟩
  rcases hm.back_other y hy with hback | ⟨-, hid⟩
  · rw [hback, hp.2]
  · exact absurd (Option.some.inj (hp.2.symm.trans hid.2)) hx

theorem NewlyMapped.imagesAgree {id id' : ℕ} (hm : NewlyMapped d t t' id id')
    (ha : t₀.Available d id) (h : ImagesAgree d t₀ t) : ImagesAgree d t₀ t' := by
  intro x hx
  rw [hm.image_other x fun heq => hx (heq ▸ ha)]
  exact h x hx

section
variable {senderId : ℕ} {args : List (ArgType d)} {vs ws : ArgValues args}

/-- A pair survives the translation of arguments that do not introduce its ID anew. -/
theorem isPair_mapSeq (hmap : mapSeq (mapArg senderId) args vs t = .ok (ws, t')) {x y : ℕ}
    (hx : x ∉ newIds args vs) (hp : t.IsPair d x y) : t'.IsPair d x y := by
  induction args generalizing t with
  | nil =>
    cases hmap
    exact hp
  | cons a args ih =>
    obtain ⟨t₁, ha, hrest⟩ := mapSeq_cons_eq_ok.mp hmap
    simp only [newIds_cons, List.mem_append, not_or] at hx
    refine ih hrest hx.2 ?_
    rcases mapArg_cases ha with ⟨-, rfl, -⟩ | ⟨id, id', hids, hm, -⟩
    · exact hp
    · exact hm.keeps (by simpa [hids] using hx.1) hp

/-- Every argument is translated when the message names its IDs well. The induction keeps
three facts about the table of the arguments done so far: the images of the IDs that were
in use, the IDs free for the receiver, and that no remaining new ID has a partner. -/
theorem related_mapSeq (hmap : mapSeq (mapArg senderId) args vs t = .ok (ws, t'))
    (hok : EachValue (ArgAccepted t₀) args vs) (hlive : EachValue (ArgUntypedLive t₀) args vs)
    (hnodup : (newIds args vs).Nodup) (hagree : ImagesAgree d t₀ t)
    (hfree : ∀ y, t.IsFree d y → t₀.IsFree d y)
    (hunused : ∀ x ∈ newIds args vs, (t.image d).get x = none) :
    Related (ArgTranslated t₀ t') args vs ws := by
  induction args generalizing t with
  | nil => trivial
  | cons a args ih =>
    obtain ⟨t₁, ha, hrest⟩ := mapSeq_cons_eq_ok.mp hmap
    rcases mapArg_cases ha with ⟨hids, rfl, htr⟩ | ⟨id, id', hids, hm, havail, htr⟩
    · simp only [newIds_cons, hids, List.nil_append] at hnodup hunused
      exact ⟨htr t₀ t' hagree hok.1 hlive.1,
        ih hrest hok.2 hlive.2 hnodup hagree hfree hunused⟩
    · have hid := havail t₀ hok.1
      simp only [newIds_cons, hids, List.cons_append, List.nil_append, List.nodup_cons] at hnodup
      simp only [newIds_cons, hids, List.cons_append, List.nil_append, List.forall_mem_cons]
        at hunused
      have hpartner : NewPartner d t₀ t' id id' :=
        { unused := hid.image_eq_none
          free := hfree _ hm.free
          pair := isPair_mapSeq hrest hnodup.1 hm.pair }
      refine ⟨(htr t₀ t').mpr hpartner, ih hrest hok.2 hlive.2 hnodup.2 (hm.imagesAgree hid hagree)
        (fun y hy => hfree y (hm.isFree hunused.1 y hy)) fun x hx => ?_⟩
      rw [hm.image_other x fun heq => hnodup.1 (heq ▸ hx)]
      exact hunused.2 x hx

/-- When every new ID has its partner in the final table, no ID was introduced twice: the
second time it would have got another partner. -/
theorem nodup_newIds {tf : ShadowTable}
    (hmap : mapSeq (mapArg senderId) args vs t = .ok (ws, t'))
    (hrel : Related (ArgTranslated t₀ tf) args vs ws) : (newIds args vs).Nodup ∧
      ∀ x ∈ newIds args vs, ∀ y, t.IsPair d x y → (tf.image d).get x ≠ some y := by
  induction args generalizing t with
  | nil => simp [newIds]
  | cons a args ih =>
    obtain ⟨t₁, ha, hrest⟩ := mapSeq_cons_eq_ok.mp hmap
    obtain ⟨hnodup, hother⟩ := ih hrest hrel.2
    rcases mapArg_cases ha with ⟨hids, rfl, -⟩ | ⟨id, id', hids, hm, -, htr⟩
    · simpa only [newIds_cons, hids, List.nil_append] using And.intro hnodup hother
    · have hpartner := (htr t₀ tf).mp hrel.1
      simp only [newIds_cons, hids, List.cons_append, List.nil_append, List.nodup_cons,
        List.forall_mem_cons]
      refine ⟨⟨fun hid => hother id hid id' hm.pair hpartner.pair.1, hnodup⟩, ?_, ?_⟩
      · intro y hp hy
        obtain rfl := Option.some.inj (hpartner.pair.1.symm.trans hy)
        simpa [hp.2] using hm.free.back
      · intro x hx y hp
        by_cases heq : x = id
        · subst heq
          exact absurd hpartner.pair.1 (hother x hx id' hm.pair)
        · exact hother x hx y (hm.keeps heq hp)

/-! ## The translation is encoded and decoded -/

theorem NewlyMapped.fitsU32 {id id' : ℕ} (hm : NewlyMapped d t t' id id') (hid : id < 2 ^ 32)
    (hf : t.FitsU32) : t'.FitsU32 := by
  refine ⟨fun e x y hxy => ?_, hm.next_lt hf.next_lt⟩
  have he : e = d ∨ e = d.reverse := by cases e <;> cases d <;> decide
  rcases he with rfl | rfl
  · by_cases hx : x = id
    · subst hx
      obtain rfl := Option.some.inj (hm.pair.1.symm.trans hxy)
      exact hm.lt hf.next_lt
    · exact hf.image_lt _ x y (hm.image_other x hx ▸ hxy)
  · by_cases hx : x = id'
    · subst hx
      obtain rfl := Option.some.inj (hm.pair.2.symm.trans hxy)
      exact hid
    · rcases hm.back_other x hx with hback | ⟨hnone, -⟩
      · exact hf.image_lt _ x y (hback ▸ hxy)
      · simp [hnone] at hxy

theorem valid_mapArg {a : ArgType d} {v w : a.Value} (h : mapArg senderId a v t = .ok (w, t'))
    (hv : a.Valid v) (hf : t.FitsU32) : a.Valid w ∧ t'.FitsU32 := by
  cases a with
  | object interface allowNull =>
    obtain ⟨rfl, hmap⟩ := mapObject_eq_ok h
    refine ⟨?_, hf⟩
    split_ifs at hmap
    · exact hmap ▸ Nat.two_pow_pos 32
    · exact hf.image_lt d v w hmap
  | newId interface =>
    have hm := newlyMapped_of_mapNewIdArg h
    exact ⟨hm.lt hf.next_lt, hm.fitsU32 hv hf⟩
  | newIdAny =>
    obtain ⟨name, version, id⟩ := v
    obtain ⟨hname, hversion, hid⟩ := hv
    simp only [mapArg] at h
    cases hnew : newHostObject id (.ofName name) version version t with
    | error e => simp [hnew, Except.map] at h
    | ok r =>
      obtain ⟨hostId, t₁⟩ := r
      simp only [hnew, Except.map, Except.ok.injEq] at h
      cases h
      have hm := newlyMapped_newHostObject hnew
      exact ⟨⟨hname, hversion, hm.lt hf.next_lt⟩, hm.fitsU32 hid hf⟩
  | int | uint | fixed | string | array | fd =>
    cases h
    exact ⟨hv, hf⟩

theorem validSeq_mapSeq {o : ByteOrder} (hmap : mapSeq (mapArg senderId) args vs t = .ok (ws, t'))
    (hv : (argCodec o d).ValidSeq args vs) (hf : t.FitsU32) :
    (argCodec o d).ValidSeq args ws := by
  induction args generalizing t with
  | nil => trivial
  | cons a args ih =>
    obtain ⟨t₁, ha, hrest⟩ := mapSeq_cons_eq_ok.mp hmap
    obtain ⟨hw, hf'⟩ := valid_mapArg ha hv.1 hf
    exact ⟨hw, ih hrest hv.2 hf'⟩

end

theorem drop_tryBuildMessage {o : ByteOrder} {payload bytes : List UInt8} {senderId opcode : ℕ}
    (h : tryBuildMessage o payload senderId opcode = .ok bytes) : bytes.drop 8 = payload := by
  simp only [tryBuildMessage] at h
  split_ifs at h
  obtain rfl := Except.ok.inj h
  exact List.drop_left' (by simp)

/-- The packet of valid arguments is framed whole and decodes to these arguments. -/
theorem decodes_buildMessage {o : ByteOrder} {messages : List (MessageSchema d)}
    {s : MessageSchema d} {ws : ArgValues s.args} {senderId opcode : ℕ} {packet : Packet}
    (hb : buildMessage o s.args ws senderId opcode = .ok packet)
    (hs : messages[opcode]? = some s) (hv : (argCodec o d).ValidSeq s.args ws)
    (hsender : senderId < 2 ^ 32) (hop : opcode < 2 ^ 16) :
    frame o packet.1 = .message { senderId, len := packet.1.length, opcode } ∧
      fromWire o messages ⟨senderId, opcode, packet.1.drop 8, packet.2⟩ =
        .ok (⟨s, ws⟩, ⟨[], []⟩) := by
  unfold buildMessage at hb
  dsimp only at hb
  cases hbytes : tryBuildMessage o (writeArgs o s.args ws .new).payload senderId opcode with
  | error e => simp [hbytes, Except.map] at hb
  | ok bytes =>
    simp only [hbytes, Except.map, Except.ok.injEq] at hb
    subst hb
    refine ⟨by simpa using frame_tryBuildMessage o hsender hop hbytes [], ?_⟩
    have hcursor : (⟨(writeArgs o s.args ws .new).payload,
        (writeArgs o s.args ws .new).fds⟩ : Cursor) =
        (argCodec o d).seq.prepend s.args ws ⟨[], []⟩ := by
      rw [← MessageBuilder.new_before ((argCodec o d).seq.prepend s.args ws ⟨[], []⟩),
        ← writeArgs_before]
      simp [MessageBuilder.before]
    simp only [fromWire, hs, WireMessage.cursor, drop_tryBuildMessage hbytes, hcursor]
    rw [(argCodec o d).seq.read_prepend hv]
    rfl

/-! ## Dispatch -/

/-- Everything a dispatch that forwards a message went through. -/
structure ForwardedAs (o : ByteOrder) (messages : List (MessageSchema d)) (t t' : ShadowTable)
    (msg : WireMessage) (packet : Packet) (s : MessageSchema d) (vs ws : ArgValues s.args)
    (senderId : ℕ) (t₁ : ShadowTable) : Prop where
  decoded : ∃ rest, fromWire o messages msg = .ok (⟨s, vs⟩, rest)
  live : ¬ t.Doomed d msg.senderId
  accepted : EachValue (ArgAccepted t) s.args vs
  sender : (t.image d).get msg.senderId = some senderId
  mapped : mapSeq (mapArg msg.senderId) s.args vs t = .ok (ws, t₁)
  built : buildMessage o s.args ws senderId msg.opcode = .ok packet
  cleanup : t₁.IsPair d msg.senderId senderId →
    ∀ x y, x ≠ msg.senderId → t₁.IsPair d x y → t'.IsPair d x y

/-- Removing an object keeps the pairs of the others. -/
theorem ShadowTable.IsPair.removeId {g h x y : ℕ} (hpair : t.IsPair .clientToHost g h)
    (hx : x ≠ g) (hp : t.IsPair .clientToHost x y) : (t.removeId g).IsPair .clientToHost x y := by
  have hy : y ≠ h := by
    rintro rfl
    exact hx (Option.some.inj (hp.2.symm.trans hpair.2))
  rw [IsPair, removeId_mapped hpair.1]
  simpa [IsPair, image, Direction.reverse, hx, hy] using hp

theorem isPair_requestDestructorCleanup {destructor : Bool} {g h x y : ℕ}
    (hpair : t.IsPair .clientToHost g h) (hx : x ≠ g) (hp : t.IsPair .clientToHost x y) :
    (requestDestructorCleanup destructor g t).IsPair .clientToHost x y := by
  unfold requestDestructorCleanup
  split_ifs
  · exact hpair.removeId hx hp
  · rwa [ShadowTable.markPendingDestroy_mapped hpair.1]
  · exact hp

theorem isPair_eventDestructorCleanup {destructor : Bool} {g h x y : ℕ}
    (hpair : t.IsPair .hostToClient h g) (hx : x ≠ h) (hp : t.IsPair .hostToClient x y) :
    (eventDestructorCleanup destructor g t).IsPair .hostToClient x y := by
  unfold eventDestructorCleanup
  split_ifs
  · have hy : y ≠ g := by
      rintro rfl
      exact hx (Option.some.inj (hp.2.symm.trans hpair.2))
    exact (hpair.symm.removeId hy hp.symm).symm
  · exact hp

theorem dispatchRequest_eq_ok {o : ByteOrder} {messages : List (MessageSchema .clientToHost)}
    {msg : WireMessage} {packet : Packet}
    (h : dispatchRequest o messages t msg = .ok (packet, t')) :
    ∃ s vs ws senderId t₁, ForwardedAs o messages t t' msg packet s vs ws senderId t₁ := by
  unfold dispatchRequest at h
  split at h
  · cases h
  · next s vs rest hdecode =>
    by_cases hdoomed : t.isPendingDestroyGuest msg.senderId = true
    · rw [if_pos hdoomed] at h
      cases h
    rw [if_neg hdoomed] at h
    obtain ⟨_, -, h⟩ := Except.bind_eq_ok_iff.mp h
    obtain ⟨_, hvalid, h⟩ := Except.bind_eq_ok_iff.mp h
    dsimp only at h
    by_cases hsender : ((t.getHostId msg.senderId).isNone &&
        !t.isLocalOnlyGuestObject msg.senderId) = true
    · rw [if_pos hsender] at h
      cases h
    rw [if_neg hsender] at h
    obtain ⟨⟨ws, t₁⟩, hmap, h⟩ := Except.bind_eq_ok_iff.mp h
    dsimp only at h
    cases hhost : t.getHostId msg.senderId with
    | none => simp [hhost] at h
    | some senderId =>
      simp only [hhost] at h
      cases hbuild : buildMessage o s.args ws senderId msg.opcode with
      | error e => simp [hbuild] at h
      | ok out =>
        simp only [hbuild, Except.ok.injEq, Prod.mk.injEq] at h
        obtain ⟨rfl, rfl⟩ := h
        exact ⟨s, vs, ws, senderId, t₁,
          { decoded := ⟨rest, hdecode⟩
            live := by simpa [ShadowTable.isPendingDestroyGuest, ShadowTable.Doomed] using hdoomed
            accepted := (checkSeq_eq_ok_iff.mp hvalid).imp fun _ _ => argAccepted_of_request
            sender := hhost
            mapped := hmap
            built := hbuild
            cleanup := fun hpair x y hx hp => isPair_requestDestructorCleanup hpair hx hp }⟩

theorem dispatchEvent_eq_ok {o : ByteOrder} {messages : List (MessageSchema .hostToClient)}
    {msg : WireMessage} {packet : Packet} (hlive : ¬ t.Doomed .hostToClient msg.senderId)
    (h : dispatchEvent o messages t msg = .ok (packet, t')) :
    ∃ s vs ws senderId t₁, ForwardedAs o messages t t' msg packet s vs ws senderId t₁ := by
  unfold dispatchEvent at h
  split_ifs at h with hknown
  split at h
  · cases h
  · next s vs rest hdecode =>
    obtain ⟨_, -, h⟩ := Except.bind_eq_ok_iff.mp h
    obtain ⟨_, hvalid, h⟩ := Except.bind_eq_ok_iff.mp h
    obtain ⟨⟨ws, t₁⟩, hmap, h⟩ := Except.bind_eq_ok_iff.mp h
    dsimp only at h
    cases hguest : t.getGuestId msg.senderId with
    | none => simp [hguest] at h
    | some senderId =>
      simp only [hguest] at h
      cases hbuild : buildMessage o s.args ws senderId msg.opcode with
      | error e => simp [hbuild] at h
      | ok out =>
        simp only [hbuild, Except.ok.injEq, Prod.mk.injEq] at h
        obtain ⟨rfl, rfl⟩ := h
        exact ⟨s, vs, ws, senderId, t₁,
          { decoded := ⟨rest, hdecode⟩
            live := hlive
            accepted := (checkSeq_eq_ok_iff.mp hvalid).imp fun _ _ => argAccepted_of_event
            sender := hguest
            mapped := hmap
            built := hbuild
            cleanup := fun hpair x y hx hp => isPair_eventDestructorCleanup hpair hx hp }⟩

theorem forwardMessage_eq_ok {o : ByteOrder} {messages : List (MessageSchema d)}
    {msg : WireMessage} {packet : Packet}
    (h : forwardMessage o d messages t msg = .ok (packet, t')) :
    ∃ s vs ws senderId t₁, ForwardedAs o messages t t' msg packet s vs ws senderId t₁ := by
  cases d with
  | clientToHost => exact dispatchRequest_eq_ok h
  | hostToClient =>
    simp only [forwardMessage] at h
    split_ifs at h with hstale
    · unfold consumeEvent at h
      split at h <;> cases h
    · refine dispatchEvent_eq_ok (fun ⟨g, hg, hdoomed⟩ => hstale ?_) h
      simp [ShadowTable.isPendingDestroyHost, hg, ShadowTable.isPendingDestroyGuest, hdoomed]

/-! ## The translation -/

/-- The IDs of the message are ones the generated code handles: no number is introduced
twice, and no interface-less object argument of an event is pending destruction. -/
def WellNamed (o : ByteOrder) (messages : List (MessageSchema d)) (t : ShadowTable)
    (msg : WireMessage) : Prop :=
  ∀ s vs rest, fromWire o messages msg = .ok (⟨s, vs⟩, rest) →
    (newIds s.args vs).Nodup ∧ EachValue (ArgUntypedLive t) s.args vs

theorem available_of_mem_newIds {args : List (ArgType d)} {vs : ArgValues args} {x : ℕ}
    (h : EachValue (ArgAccepted t) args vs) (hx : x ∈ newIds args vs) : t.Available d x := by
  induction args with
  | nil => simp [newIds] at hx
  | cons a args ih =>
    rw [newIds_cons, List.mem_append] at hx
    rcases hx with hx | hx
    · have ha := h.1
      cases a with
      | newId | newIdAny =>
        obtain rfl := List.mem_singleton.mp hx
        exact ha
      | object | int | uint | fixed | string | array | fd => cases hx
    · exact ih h.2 hx

theorem ShadowTable.Paired.isPair (hp : t.Paired) {x y : ℕ}
    (hx : (t.image d).get x = some y) : t.IsPair d x y := by
  cases d with
  | clientToHost => exact ⟨hx, (hp x y).mp hx⟩
  | hostToClient => exact ⟨hx, (hp y x).mpr hx⟩

theorem ArgTranslated.of_pairs {t₁ : ShadowTable} {a : ArgType d} {v w : a.Value}
    (h : ArgTranslated t t₁ a v w)
    (hkeep : ∀ x y, (t.image d).get x = none → t₁.IsPair d x y → t'.IsPair d x y) :
    ArgTranslated t t' a v w := by
  cases a with
  | newId => exact ⟨h.unused, h.free, hkeep _ _ h.unused h.pair⟩
  | newIdAny =>
    obtain ⟨hname, hversion, hnew⟩ := h
    exact ⟨hname, hversion, hnew.unused, hnew.free, hkeep _ _ hnew.unused hnew.pair⟩
  | object | int | uint | fixed | string | array | fd => exact h

theorem untypedLive_of_related {args : List (ArgType d)} {vs ws : ArgValues args}
    (h : Related (ArgTranslated t t') args vs ws) : EachValue (ArgUntypedLive t) args vs := by
  induction args with
  | nil => trivial
  | cons a args ih =>
    refine ⟨?_, ih h.2⟩
    cases a with
    | object interface allowNull =>
      intro _ _
      have hobject : ObjectTranslated d t interface allowNull vs.1 ws.1 := h.1
      unfold ObjectTranslated at hobject
      split_ifs at hobject with hnull
      · exact .inl hnull
      · exact .inr hobject.2.live
    | newId | newIdAny | int | uint | fixed | string | array | fd => trivial

section
variable {o : ByteOrder} {messages : List (MessageSchema d)} {msg : WireMessage}
  {packet : Packet} {s : MessageSchema d} {vs ws : ArgValues s.args} {senderId : ℕ}
  {t₁ : ShadowTable}

theorem ForwardedAs.schema (hf : ForwardedAs o messages t t' msg packet s vs ws senderId t₁) :
    messages[msg.opcode]? = some s ∧ (argCodec o d).ValidSeq s.args vs := by
  obtain ⟨rest, hdecode⟩ := hf.decoded
  unfold fromWire at hdecode
  split at hdecode
  · cases hdecode
  · next s' hs =>
    cases hread : (argCodec o d).seq.read s'.args msg.cursor with
    | error e => simp [hread, Except.map] at hdecode
    | ok r =>
      simp only [hread, Except.map, Except.ok.injEq] at hdecode
      cases hdecode
      exact ⟨hs, (argCodec o d).seq.valid_of_read hread⟩

/-- The packet decodes to the translated arguments whatever the IDs of the message are. -/
theorem ForwardedAs.decodes (hf : ForwardedAs o messages t t' msg packet s vs ws senderId t₁)
    (hfits : t.FitsU32) (hop : msg.opcode < 2 ^ 16) :
    frame o packet.1 = .message { senderId, len := packet.1.length, opcode := msg.opcode } ∧
      fromWire o messages ⟨senderId, msg.opcode, packet.1.drop 8, packet.2⟩ =
        .ok (⟨s, ws⟩, ⟨[], []⟩) :=
  decodes_buildMessage hf.built hf.schema.1 (validSeq_mapSeq hf.mapped hf.schema.2 hfits)
    (hfits.image_lt d _ _ hf.sender) hop

/-- New IDs keep their partners when a destructor retires the sender. -/
theorem ForwardedAs.related (hf : ForwardedAs o messages t t' msg packet s vs ws senderId t₁)
    (hp : t.Paired) (hnodup : (newIds s.args vs).Nodup)
    (hlive : EachValue (ArgUntypedLive t) s.args vs) :
    Related (ArgTranslated t t') s.args vs ws := by
  have hunused : ∀ x ∈ newIds s.args vs, (t.image d).get x = none :=
    fun x hx => (available_of_mem_newIds hf.accepted hx).image_eq_none
  have hsender : t₁.IsPair d msg.senderId senderId := by
    refine isPair_mapSeq hf.mapped (fun hmem => ?_) (hp.isPair hf.sender)
    simpa [hf.sender] using hunused _ hmem
  refine (related_mapSeq hf.mapped hf.accepted hlive hnodup (fun _ _ => rfl) (fun _ hy => hy)
    hunused).imp fun a v w h => h.of_pairs fun x y hx hpair => ?_
  refine hf.cleanup hsender x y ?_ hpair
  rintro rfl
  simp [hf.sender] at hx

/-- The packet is the translation of the message exactly when the message is well named. -/
theorem ForwardedAs.translated_iff
    (hf : ForwardedAs o messages t t' msg packet s vs ws senderId t₁) (hp : t.Paired)
    (hfits : t.FitsU32) (hop : msg.opcode < 2 ^ 16) :
    Translated o messages t t' msg packet ↔ WellNamed o messages t msg := by
  obtain ⟨rest, hdecode⟩ := hf.decoded
  obtain ⟨hframe, hpacket⟩ := hf.decodes hfits hop
  constructor
  · rintro ⟨-, s', vs', ws', rest', senderId', hsender, -, hdecode', hpacket', hrel⟩
      s'' vs'' rest'' hdecode''
    obtain rfl := Option.some.inj (hf.sender.symm.trans hsender)
    cases hdecode.symm.trans hdecode'
    cases hdecode.symm.trans hdecode''
    cases hpacket.symm.trans hpacket'
    exact ⟨(nodup_newIds hf.mapped hrel).1, untypedLive_of_related hrel⟩
  · intro hnamed
    obtain ⟨hnodup, hlive⟩ := hnamed s vs rest hdecode
    exact
      { sender := ⟨by simp [hf.sender], hf.live, by simp⟩
        decodes := ⟨s, vs, ws, rest, senderId, hf.sender, hframe, hdecode, hpacket,
          hf.related hp hnodup hlive⟩ }

end

/-- A forwarded message is the translation of the one that came in if and only if no number
is introduced twice in it and, in an event, no interface-less object argument names an object
pending destruction. -/
theorem forwardMessage_translated_iff (o : ByteOrder) {d : Direction}
    (messages : List (MessageSchema d)) {t t' : ShadowTable} (hp : t.Paired) (hfits : t.FitsU32)
    {msg : WireMessage} (hop : msg.opcode < 2 ^ 16) {packet : Packet}
    (h : forwardMessage o d messages t msg = .ok (packet, t')) :
    Translated o messages t t' msg packet ↔ WellNamed o messages t msg := by
  obtain ⟨s, vs, ws, senderId, t₁, hf⟩ := forwardMessage_eq_ok h
  exact hf.translated_iff hp hfits hop

/-! ## A translation that names a destroyed object -/

/-- The `error` event of a display: an interface-less object, a code and a text. -/
def displayError : MessageSchema .hostToClient where
  since := none
  args := [.object none false, .uint, .string false]
  destructor := false

/-- A display, and a surface whose destructor was forwarded. -/
def destroyedSurface : ShadowTable :=
  ((ShadowTable.new.registerObject 1 1 .wlDisplay 1 1).registerObject 3 5 .wlSurface 4
    4).markPendingDestroy 3

/-- An error about the surface. -/
def surfaceError : WireMessage where
  senderId := 1
  opcode := 0
  payload := [5, 0, 0, 0, 2, 0, 0, 0, 1, 0, 0, 0, 0, 0, 0, 0]
  fds := []

theorem fromWire_surfaceError : fromWire .little [displayError] surfaceError =
    .ok (⟨displayError, ((5 : ℕ), (2 : ℕ), "", ⟨⟩)⟩, ⟨[], []⟩) := by
  rfl

theorem forwardMessage_surfaceError :
    forwardMessage .little .hostToClient [displayError] destroyedSurface surfaceError =
      .ok (([1, 0, 0, 0, 0, 0, 24, 0, 3, 0, 0, 0, 2, 0, 0, 0, 1, 0, 0, 0, 0, 0, 0, 0], []),
        destroyedSurface) := by
  rfl

theorem paired_destroyedSurface : destroyedSurface.Paired := by
  have hnew : ShadowTable.new.Paired := fun g h => by simp [ShadowTable.new]
  have hdisplay : (ShadowTable.new.registerObject 1 1 .wlDisplay 1 1).Paired :=
    hnew.mapId (by decide) (by decide)
  have hsurface : ((ShadowTable.new.registerObject 1 1 .wlDisplay 1 1).registerObject 3 5
    .wlSurface 4 4).Paired := hdisplay.mapId (by decide) (by decide)
  rwa [destroyedSurface, ShadowTable.markPendingDestroy_mapped (h := 5) (by decide)]

theorem fitsU32_destroyedSurface : destroyedSurface.FitsU32 := by
  refine ⟨fun d x y hxy => ?_, by decide⟩
  have hmem := ((destroyedSurface.image d).mem_entries x y).mpr hxy
  have hentries : ∀ e ∈ (destroyedSurface.image d).entries, e.2 < 2 ^ 32 := by
    cases d <;> decide
  exact hentries _ hmem

/-- The error is forwarded with the ID of the surface although the guest destroyed it. -/
theorem forwardMessage_names_destroyed : ∃ packet t',
    forwardMessage .little .hostToClient [displayError] destroyedSurface surfaceError =
      .ok (packet, t') ∧ destroyedSurface.Paired ∧ destroyedSurface.FitsU32 ∧
      ¬ Translated .little [displayError] destroyedSurface t' surfaceError packet := by
  refine ⟨_, _, forwardMessage_surfaceError, paired_destroyedSurface,
    fitsU32_destroyedSurface, ?_⟩
  rintro ⟨-, s, vs, ws, rest, senderId, -, -, hdecode, -, hrel⟩
  cases fromWire_surfaceError.symm.trans hdecode
  have hobject : ObjectTranslated .hostToClient destroyedSurface none false 5 ws.1 := hrel.1
  exact hobject.2.live ⟨3, by decide, by decide⟩

/-- The exact condition at that message, which does not meet it. -/
theorem forwardMessage_translated_iff_surfaceError :
    Translated .little [displayError] destroyedSurface destroyedSurface surfaceError
      ([1, 0, 0, 0, 0, 0, 24, 0, 3, 0, 0, 0, 2, 0, 0, 0, 1, 0, 0, 0, 0, 0, 0, 0], []) ↔
      WellNamed .little [displayError] destroyedSurface surfaceError :=
  forwardMessage_translated_iff .little [displayError] paired_destroyedSurface
    fitsU32_destroyedSurface (by decide) forwardMessage_surfaceError

end Sommelier
