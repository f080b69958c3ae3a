import Sommelier.Objects.ParamsProtocol

/-!
# Rejected parameters

A creation whose planes do not fit is answered with a protocol error. Its code is that of the first
check that fails: the size, the format, the number of planes, and then the planes in the order in
which the guest added them.

## Main definitions

* `Rejected`: a code and what is wrong with the creation.
* `PlanesApart`: no two collected planes of parameters have one index.
* `Collecting`: parameters the guest may still use collect planes.
* `AnsweredOnce`: the one answer to a creation.

## Main results

* `rejection_explained`: the guest is told a code exactly for what is wrong.
-/
namespace Sommelier

variable {c c' : Context} {p n : ℕ} {width height : ℤ} {format code : ℕ}
  {planes before after : List PendingParam} {plane : PendingParam}

/-- A plane the format has and that fits the size. -/
def Fits (width height : ℤ) (format : ℕ) (plane : PendingParam) : Prop :=
  plane.planeIdx < expectedPlanes format ∧ validDmabufPlane plane format width height = true

/-- What a code says about a creation; `planes` are those collected, if any still are. -/
inductive Rejected (width height : ℤ) (format : ℕ) : Option (List PendingParam) → ℕ → Prop
  | dimensions {collected : Option (List PendingParam)} (hsize : width ≤ 0 ∨ height ≤ 0) :
      Rejected width height format collected 5
  | unsupported {collected : Option (List PendingParam)} (hwidth : 0 < width) (hheight : 0 < height)
      (hformat : isSupportedDrmFormat format = false) : Rejected width height format collected 4
  | incomplete {collected : Option (List PendingParam)} (hwidth : 0 < width) (hheight : 0 < height)
      (hformat : isSupportedDrmFormat format = true)
      (hcount : ∀ params, collected = some params → params.length ≠ expectedPlanes format) :
      Rejected width height format collected 3
  | index {before after : List PendingParam} {plane : PendingParam}
      (hwidth : 0 < width) (hheight : 0 < height)
      (hformat : isSupportedDrmFormat format = true)
      (hcount : (before ++ plane :: after).length = expectedPlanes format)
      (hbefore : ∀ b ∈ before, Fits width height format b)
      (hindex : expectedPlanes format ≤ plane.planeIdx) :
      Rejected width height format (some (before ++ plane :: after)) 1
  | bounds {before after : List PendingParam} {plane : PendingParam}
      (hwidth : 0 < width) (hheight : 0 < height)
      (hformat : isSupportedDrmFormat format = true)
      (hcount : (before ++ plane :: after).length = expectedPlanes format)
      (hbefore : ∀ b ∈ before, Fits width height format b)
      (hindex : plane.planeIdx < expectedPlanes format)
      (hbounds : validDmabufPlane plane format width height = false) :
      Rejected width height format (some (before ++ plane :: after)) 6

/-- No two collected planes of parameters have one index. -/
def PlanesApart (c : Context) : Prop :=
  ∀ p params, c.pendingParams.get p = some params → (params.map (·.planeIdx)).Nodup

/-- Parameters the guest may name collect planes until they are used. -/
def Collecting (c : Context) : Prop :=
  ∀ p, c.liveParams p ≠ none → p ∉ c.usedDmabufParams → c.pendingParams.get p ≠ none

/-! ## The first plane that does not fit -/

/-- Planes that fit are passed. -/
theorem planesErrorCode_append {seen : List ℕ} (hbefore : ∀ b ∈ before, Fits width height format b)
    (hnew : ∀ b ∈ before, b.planeIdx ∉ seen) (hnodup : (before.map (·.planeIdx)).Nodup) :
    planesErrorCode (expectedPlanes format) width height format seen (before ++ planes) =
      planesErrorCode (expectedPlanes format) width height format
        ((before.map (·.planeIdx)).reverse ++ seen) planes := by
  induction before generalizing seen with
  | nil => rfl
  | cons b before ih =>
    obtain ⟨hindex, hvalid⟩ := hbefore b (by simp)
    have hb := hnew b (by simp)
    rw [List.map_cons, List.nodup_cons] at hnodup
    simp only [List.cons_append, planesErrorCode, Nat.not_le.mpr hindex, hb, hvalid, if_false,
      Bool.not_true, Bool.false_eq_true]
    rw [ih (fun b' hb' => hbefore b' (by simp [hb'])) (fun b' hb' => ?_) hnodup.2]
    · simp
    · rw [List.mem_cons, not_or]
      refine ⟨fun heq => hnodup.1 ?_, hnew b' (by simp [hb'])⟩
      exact heq ▸ List.mem_map_of_mem hb'

/-- Either all planes fit, or there is a first one that does not. -/
theorem fits_or_first (width height : ℤ) (format : ℕ) (planes : List PendingParam) :
    (∀ plane ∈ planes, Fits width height format plane) ∨
      ∃ before plane after, planes = before ++ plane :: after ∧
        (∀ b ∈ before, Fits width height format b) ∧ ¬ Fits width height format plane := by
  induction planes with
  | nil => exact .inl (by simp)
  | cons plane planes ih =>
    by_cases hfits : Fits width height format plane
    · rcases ih with hall | ⟨before, first, after, rfl, hbefore, hfirst⟩
      · exact .inl (by simpa [hfits] using hall)
      · exact .inr ⟨plane :: before, first, after, rfl, by simpa [hfits] using hbefore, hfirst⟩
    · exact .inr ⟨[], plane, planes, rfl, by simp, hfits⟩

/-- A creation is valid when all its planes fit. -/
theorem validParams_iff (hapart : PlanesApart c) :
    validParams c p width height format = true ↔
      0 < width ∧ 0 < height ∧ isSupportedDrmFormat format = true ∧
        ∃ params, c.pendingParams.get p = some params ∧
          params.length = expectedPlanes format ∧
          ∀ plane ∈ params, Fits width height format plane := by
  by_cases hdims : width ≤ 0 ∨ height ≤ 0 ∨ isSupportedDrmFormat format = false
  · refine iff_of_false (by simp [validParams, hdims]) ?_
    rintro ⟨hwidth, hheight, hformat, -⟩
    rcases hdims with hbad | hbad | hbad
    · omega
    · omega
    · simp [hformat] at hbad
  · rw [validParams, if_neg hdims]
    push Not at hdims
    cases hparams : c.pendingParams.get p with
    | none => simp
    | some params =>
      have hnodup := hapart p params hparams
      have hformat : isSupportedDrmFormat format = true := by simpa using hdims.2.2
      change (decide (params.length = expectedPlanes format) &&
        decide (params.map (·.planeIdx)).Nodup && params.all fun param =>
          decide (param.planeIdx < expectedPlanes format) &&
            validDmabufPlane param format width height) = true ↔ _
      simp [hnodup, hdims.1, hdims.2.1, hformat, Fits]

/-- Where the check of the planes stops. -/
theorem paramsErrorCode_first (hapart : PlanesApart c)
    (hsize : 0 < width ∧ 0 < height ∧ isSupportedDrmFormat format = true)
    (hparams : c.pendingParams.get p = some (before ++ plane :: after))
    (hcount : (before ++ plane :: after).length = expectedPlanes format)
    (hbefore : ∀ b ∈ before, Fits width height format b) :
    paramsErrorCode c p width height format =
      planesErrorCode (expectedPlanes format) width height format
        (before.map (·.planeIdx)).reverse (plane :: after) ∧
      plane.planeIdx ∉ (before.map (·.planeIdx)).reverse := by
  have hnodup := hapart p _ hparams
  rw [List.map_append, List.map_cons, List.nodup_append] at hnodup
  have hdims : ¬ (width ≤ 0 ∨ height ≤ 0) := by omega
  refine ⟨?_, fun hmem => ?_⟩
  · rw [paramsErrorCode, if_neg hdims, hsize.2.2, hparams]
    simp only [Bool.not_true, Bool.false_eq_true, if_false, hcount, ne_eq, not_true_eq_false]
    rw [planesErrorCode_append hbefore (by simp) hnodup.1, List.append_nil]
  · exact hnodup.2.2 _ (List.mem_reverse.mp hmem) _ (by simp) rfl

/-- A code that is justified is the one the guest gets. -/
theorem Rejected.code_eq {collected : Option (List PendingParam)} (hapart : PlanesApart c)
    (hparams : c.pendingParams.get p = collected)
    (hrejected : Rejected width height format collected code) :
    validParams c p width height format = false ∧
      paramsErrorCode c p width height format = code := by
  rw [← Bool.not_eq_true, validParams_iff hapart, hparams]
  cases hrejected with
  | dimensions hsize =>
    refine ⟨fun hvalid => ?_, by rw [paramsErrorCode, if_pos hsize]⟩
    omega
  | unsupported hwidth hheight hformat =>
    refine ⟨fun hvalid => by simp [hformat] at hvalid, ?_⟩
    rw [paramsErrorCode, if_neg (by omega), hformat]
    rfl
  | incomplete hwidth hheight hformat hcount =>
    refine ⟨?_, ?_⟩
    · rintro ⟨-, -, -, params, hsome, hlength, -⟩
      exact hcount params hsome hlength
    · rw [paramsErrorCode, if_neg (by omega), hformat, hparams]
      simp only [Bool.not_true, Bool.false_eq_true, if_false]
      cases hcollected : collected with
      | none => rfl
      | some params => simp [hcount params hcollected]
  | @index before after plane hwidth hheight hformat hcount hbefore hindex =>
    obtain ⟨hcode, -⟩ := paramsErrorCode_first hapart ⟨hwidth, hheight, hformat⟩ hparams hcount
      hbefore
    refine ⟨?_, by rw [hcode, planesErrorCode, if_pos hindex]⟩
    rintro ⟨-, -, -, params, hsome, -, hfits⟩
    obtain rfl := Option.some.inj hsome
    exact absurd (hfits plane (by simp)).1 (Nat.not_lt.mpr hindex)
  | @bounds before after plane hwidth hheight hformat hcount hbefore hindex hbounds =>
    obtain ⟨hcode, hnew⟩ := paramsErrorCode_first hapart ⟨hwidth, hheight, hformat⟩ hparams hcount
      hbefore
    refine ⟨?_, ?_⟩
    · rintro ⟨-, -, -, params, hsome, -, hfits⟩
      obtain rfl := Option.some.inj hsome
      simp [(hfits plane (by simp)).2] at hbounds
    · rw [hcode, planesErrorCode, if_neg (Nat.not_le.mpr hindex), if_neg hnew, hbounds]
      rfl

/-- What is wrong with a creation that is not valid. -/
theorem rejected_of_invalid (hapart : PlanesApart c)
    (hinvalid : validParams c p width height format = false) :
    ∃ code, Rejected width height format (c.pendingParams.get p) code := by
  rw [← Bool.not_eq_true, validParams_iff hapart] at hinvalid
  by_cases hsize : width ≤ 0 ∨ height ≤ 0
  · exact ⟨5, .dimensions hsize⟩
  rw [not_or, Int.not_le, Int.not_le] at hsize
  by_cases hformat : isSupportedDrmFormat format = true
  · by_cases hcount : ∃ params, c.pendingParams.get p = some params ∧
        params.length = expectedPlanes format
    · obtain ⟨params, hparams, hlength⟩ := hcount
      rcases fits_or_first width height format params with
        hall | ⟨before, first, after, rfl, hbefore, hfirst⟩
      · exact absurd ⟨hsize.1, hsize.2, hformat, params, hparams, hlength, hall⟩ hinvalid
      · rw [hparams]
        by_cases hindex : first.planeIdx < expectedPlanes format
        · refine ⟨6, .bounds hsize.1 hsize.2 hformat hlength hbefore hindex ?_⟩
          rw [← Bool.not_eq_true]
          exact fun hvalid => hfirst ⟨hindex, hvalid⟩
        · exact ⟨1, .index hsize.1 hsize.2 hformat hlength hbefore (Nat.not_lt.mp hindex)⟩
    · refine ⟨3, .incomplete hsize.1 hsize.2 hformat fun params hparams hlength => ?_⟩
      exact hcount ⟨params, hparams, hlength⟩
  · exact ⟨4, .unsupported hsize.1 hsize.2 (by simpa using hformat)⟩

open DmabufSession

/-! ## Answers -/

namespace SparesParams

theorem forgetParams (c : Context) (h : ℕ) : SparesParams c (Sommelier.forgetParams c h) := by
  refine .of_eq rfl rfl rfl rfl rfl fun h' hh' => ?_
  simp only [Sommelier.forgetParams, Table.get_erase] at hh'
  split_ifs at hh'
  · exact absurd rfl hh'
  · exact hh'

theorem releaseOrphanedParams (c : Context) (h : ℕ) :
    SparesParams c (Sommelier.releaseOrphanedParams c h) := by
  unfold Sommelier.releaseOrphanedParams
  split_ifs
  · exact .of_eq rfl rfl rfl rfl rfl fun _ => id
  · exact .refl c

/-- An answer ends a creation, not the parameters. -/
theorem onCreated (c : Context) (h buffer : ℕ) :
    SparesParams c (Sommelier.onCreated c h buffer).2 := by
  have hfatal : SparesParams c { c with fatalProtocolError := true } :=
    .of_eq rfl rfl rfl rfl rfl fun _ => id
  have horphan : SparesParams c (destroyOrphanedBuffer c h buffer) :=
    ⟨Follows.destroyOrphanedBuffer_live c h buffer, rfl, rfl, fun _ => id⟩
  have hforget := horphan.trans (.forgetParams _ h)
  have herase : SparesParams c { c with
      pendingNativeCreates := c.pendingNativeCreates.erase h } :=
    ⟨fun _ => rfl, rfl, rfl, (SparesParams.forgetParams c h).creates⟩
  unfold Sommelier.onCreated
  by_cases horphaned : (c.orphanedDmabufParams.get h).isSome = true
  · rw [if_pos horphaned]
    split_ifs
    · exact hfatal
    · exact hforget.trans (.releaseOrphanedParams _ h)
  · rw [if_neg horphaned]
    cases c.shadowTable.getGuestId h with
    | none => exact .refl c
    | some guestParamsId =>
      dsimp only
      by_cases hpending : c.shadowTable.isPendingDestroyGuest guestParamsId = true
      · rw [if_pos hpending]
        split_ifs
        · exact hfatal
        · exact hforget
      · rw [if_neg hpending]
        cases c.pendingNativeCreates.get h with
        | none => exact .refl c
        | some pending =>
          dsimp only
          split_ifs <;> exact herase.trans (.of_eq rfl rfl rfl rfl rfl fun _ => id)

theorem onFailed (c : Context) (h : ℕ) : SparesParams c (Sommelier.onFailed c h).2 := by
  have hforget := SparesParams.forgetParams c h
  have herase : SparesParams c { c with
      pendingNativeCreates := c.pendingNativeCreates.erase h } :=
    ⟨fun _ => rfl, rfl, rfl, hforget.creates⟩
  unfold Sommelier.onFailed
  split_ifs
  · exact hforget.trans (.releaseOrphanedParams _ h)
  · cases c.shadowTable.getGuestId h with
    | none => exact .refl c
    | some guestParamsId =>
      dsimp only
      split_ifs
      · exact hforget
      · cases c.pendingNativeCreates.get h with
        | none => exact .refl c
        | some pending =>
          dsimp only
          split_ifs <;> exact herase.trans (.of_eq rfl rfl rfl rfl rfl fun _ => id)

/-- What a `created` does, its announcement included. -/
theorem created {h buffer : ℕ} (havail : c.shadowTable.isHostIdAvailable buffer = true)
    (h' : (let (action, c) := Sommelier.onCreated c h buffer
      (Sommelier.settle c).bind fun c =>
        if action = .forward then mapAnnouncedId c h buffer .wlBuffer else some c) = some c') :
    SparesParams c c' := by
  have hspares := onCreated c h buffer
  have hforward := DmabufSession.onCreated_context { DmabufSession.new with context := c } h buffer
  rcases hs : Sommelier.onCreated c h buffer with ⟨action, c₁⟩
  rw [hs] at hspares h' hforward
  obtain ⟨c₂, hsettle, hmap⟩ := Option.bind_eq_some_iff.mp h'
  obtain ⟨-, rfl⟩ := settle_eq_some.mp hsettle
  split_ifs at hmap with haction
  · obtain ⟨hactionEq, hcontext⟩ := Prod.mk.inj hforward
    have htable := Follows.onCreated_forward (hactionEq.trans haction)
    rw [hcontext] at htable
    exact hspares.trans (mapAnnouncedId_sparesParams (by simp) (by rw [htable]; exact havail) hmap)
  · exact Option.some.inj hmap ▸ hspares

/-- A new buffer is no parameters object. -/
theorem registerBuffer {buffer h : ℕ}
    (havail : c.shadowTable.isGuestIdAvailable buffer = true)
    (hfree : c.shadowTable.hostIdFree h = true) (n version : ℕ) :
    SparesParams c { c with
      shadowTable := ShadowTable.registerObject { c.shadowTable with nextHostId := n } buffer h
        .wlBuffer version version } := by
  obtain ⟨-, -, hg, -⟩ := ShadowTable.isGuestIdAvailable_iff.mp havail
  have hh := (ShadowTable.hostIdFree_iff.mp hfree).1
  refine .of_sameBut (ShadowTable.registerObject_sameBut hg hh) (liveHost_unmapped hg)
    (liveParams_other (i := .wlBuffer) ?_ (by simp)) rfl rfl fun _ => id
  rw [ShadowTable.registerObject_fresh (by exact hg) (by exact hh)]
  simp

end SparesParams

/-! ## Collected planes -/

namespace PlanesApart

/-- Nothing is collected but what was there. -/
theorem of_subset (hapart : PlanesApart c)
    (hsubset : ∀ p params, c'.pendingParams.get p = some params →
      c.pendingParams.get p = some params) : PlanesApart c' :=
  fun p params hparams => hapart p params (hsubset p params hparams)

/-- Taking the planes of some parameters out. -/
theorem erase (hapart : PlanesApart c) (p : ℕ)
    (hpending : c'.pendingParams = c.pendingParams.erase p) : PlanesApart c' := by
  refine hapart.of_subset fun p' params hparams => ?_
  rw [hpending, Table.get_erase] at hparams
  split_ifs at hparams
  exact hparams

theorem of_same (hapart : PlanesApart c) (hpending : c'.pendingParams = c.pendingParams) :
    PlanesApart c' :=
  hapart.of_subset fun _ _ hparams => hpending ▸ hparams

theorem onAdd (hapart : PlanesApart c) (p : ℕ) (param : PendingParam) (duplicated : Bool) :
    PlanesApart (Sommelier.onAdd c p param duplicated).2 := by
  unfold Sommelier.onAdd
  split_ifs with hused hindex hset
  · exact hapart
  · exact hapart
  · exact hapart
  · exact hapart
  · intro p' params' hparams'
    simp only [Table.get_modify] at hparams'
    split_ifs at hparams' with heq
    · obtain ⟨params, hparams, rfl⟩ := Option.map_eq_some_iff.mp hparams'
      have hnodup := hapart p' params hparams
      rw [← heq, hparams] at hset
      have hnew : ∀ plane ∈ params, plane.planeIdx ≠ param.planeIdx := by simpa using hset
      rw [List.map_append, List.map_singleton, List.nodup_append]
      refine ⟨hnodup, by simp, fun idx hidx idx' hidx' => ?_⟩
      obtain ⟨plane, hplane, rfl⟩ := List.mem_map.mp hidx
      rw [List.mem_singleton.mp hidx']
      exact hnew plane hplane
    · exact hapart p' params' hparams'

theorem processParams (hapart : PlanesApart c) (p : ℕ) (duplicated : Bool) :
    PlanesApart (Sommelier.processParams c p duplicated).2 := by
  unfold Sommelier.processParams
  cases c.pendingParams.get p with
  | none => exact hapart
  | some params =>
    dsimp only [discardPendingParams]
    cases c.shadowTable.getHostId p with
    | none => exact hapart.erase p rfl
    | some hostId =>
      dsimp only
      split_ifs <;> exact hapart.erase p rfl

theorem onCreate (hapart : PlanesApart c) (p : ℕ) (width height : ℤ) (format : ℕ)
    (duplicated : Bool) :
    PlanesApart (Sommelier.onCreate c p width height format duplicated).2 := by
  have hprocess := hapart.processParams p duplicated
  unfold Sommelier.onCreate
  split_ifs
  · exact hapart
  · exact hapart.erase p rfl
  · rcases hs : Sommelier.processParams c p duplicated with ⟨_ | hostParamsId, c'⟩
    · rw [hs] at hprocess
      exact hprocess
    · rw [hs] at hprocess
      dsimp only at hprocess ⊢
      cases c'.pendingNativeCreates.get hostParamsId <;> exact hprocess.of_same rfl

theorem onCreateImmed (hapart : PlanesApart c) {p buffer : ℕ} {width height : ℤ} {format : ℕ}
    {duplicated : Bool} {result : Action × Context}
    (hresult : Sommelier.onCreateImmed c p buffer width height format duplicated = some result) :
    PlanesApart result.2 := by
  unfold Sommelier.onCreateImmed at hresult
  split_ifs at hresult
  · exact Option.some.inj hresult ▸ hapart.of_same rfl
  · exact Option.some.inj hresult ▸ hapart
  · exact Option.some.inj hresult ▸ hapart.processParams p duplicated
  · exact Option.some.inj hresult ▸ hapart.erase p rfl
  · obtain ⟨⟨hostBufferId, t⟩, -, hresult⟩ := Option.bind_eq_some_iff.mp hresult
    dsimp only at hresult
    have hprocess := processParams (c := { c with
      shadowTable := t.registerObject buffer hostBufferId .wlBuffer
        ((t.guestObjectVersion p).getD unknownObjectVersion)
        ((t.guestObjectVersion p).getD unknownObjectVersion) }) (hapart.of_same rfl) p duplicated
    rcases hs : Sommelier.processParams _ p duplicated with ⟨_ | hostParamsId, c'⟩
    · rw [hs] at hresult hprocess
      exact Option.some.inj hresult ▸ hprocess.of_same rfl
    · rw [hs] at hresult hprocess
      exact Option.some.inj hresult ▸ hprocess.of_same rfl

theorem paramsOnDestroy (hapart : PlanesApart c) (p : ℕ) :
    PlanesApart (Sommelier.paramsOnDestroy c p).2 := by
  refine hapart.erase p ?_
  unfold Sommelier.paramsOnDestroy
  dsimp only
  cases c.shadowTable.getHostId p with
  | none => rfl
  | some hostId =>
    dsimp only
    cases c.pendingNativeCreates.get hostId <;> rfl

theorem new : PlanesApart Context.new := fun p params hparams => by simp [Context.new] at hparams

/-- One message collects no second plane of an index. -/
theorem step {maps : DamageMapping} {m : Message} (hapart : PlanesApart c)
    (hc : Consistent Set.univ c) (h' : Sommelier.step maps c m = some c') : PlanesApart c' := by
  by_cases hm : m.isAboutParams = false
  · exact hapart.of_same (step_sparesParams hc hm h').pending
  cases m with
  | createParams factory params =>
    rw [DmabufSession.step_request rfl rfl] at h'
    obtain ⟨⟨_, t⟩, -, heq⟩ := Option.bind_eq_some_iff.mp (guarded_eq_some.mp h').2
    obtain rfl := Option.some.inj heq
    intro p planes hplanes
    simp only [Context.queue, onCreateParams, Table.get_set] at hplanes
    split_ifs at hplanes
    · obtain rfl := Option.some.inj hplanes
      simp
    · exact hapart p planes hplanes
  | addPlane params plane duplicated =>
    rw [DmabufSession.step_request rfl rfl] at h'
    obtain ⟨-, rfl⟩ := settle_eq_some.mp (guarded_eq_some.mp h').2
    exact hapart.onAdd params plane duplicated
  | create params width height format duplicated =>
    rw [DmabufSession.step_request rfl rfl] at h'
    obtain ⟨-, rfl⟩ := settle_eq_some.mp (guarded_eq_some.mp h').2
    exact hapart.onCreate params width height format duplicated
  | createImmed params buffer width height format duplicated =>
    rw [DmabufSession.step_request rfl rfl] at h'
    obtain ⟨result, hresult, hsettle⟩ := Option.bind_eq_some_iff.mp (guarded_eq_some.mp h').2
    obtain ⟨-, rfl⟩ := settle_eq_some.mp hsettle
    exact hapart.onCreateImmed hresult
  | destroyParams params =>
    rw [DmabufSession.step_request rfl rfl] at h'
    obtain ⟨-, rfl⟩ := settle_eq_some.mp (guarded_eq_some.mp h').2
    obtain ⟨t, traffic, heq⟩ := destroyPlain_eq (Sommelier.paramsOnDestroy c params).2 params
    rw [heq]
    exact (hapart.paramsOnDestroy params).of_same rfl
  | created params buffer =>
    rw [DmabufSession.step_event rfl, eventStep] at h'
    obtain rfl | ⟨-, -, h'⟩ := Sommelier.deliver_eq_some (guarded_eq_some.mp h').2
    · exact hapart
    · obtain ⟨havail, h'⟩ := guarded_eq_some.mp h'
      exact hapart.of_same (SparesParams.created havail h').pending
  | failed params =>
    rw [DmabufSession.step_event rfl, eventStep] at h'
    obtain rfl | ⟨-, -, h'⟩ := Sommelier.deliver_eq_some (guarded_eq_some.mp h').2
    · exact hapart
    · obtain ⟨-, rfl⟩ := settle_eq_some.mp h'
      exact hapart.of_same (SparesParams.onFailed c params).pending
  | _ => exact absurd rfl hm

end PlanesApart

/-! ## Unused parameters -/

namespace Collecting

/-- Steps that leave the parameters alone. -/
theorem of_spares (hcol : Collecting c) (hspares : SparesParams c c') : Collecting c' := by
  intro p hlive hunused
  rw [hspares.live] at hlive
  rw [hspares.used] at hunused
  rw [hspares.pending]
  exact hcol p hlive hunused

/-- Live parameters whose planes are taken out have been used. -/
theorem processParams (hcol : Collecting c) (p : ℕ) (duplicated : Bool)
    (hlives : (Sommelier.processParams c p duplicated).2.fatalProtocolError = false) :
    Collecting (Sommelier.processParams c p duplicated).2 := by
  unfold Sommelier.processParams at hlives ⊢
  cases hparams : c.pendingParams.get p with
  | none => exact hcol
  | some params =>
    simp only [hparams, discardPendingParams] at hlives ⊢
    cases hhost : c.shadowTable.getHostId p with
    | none => simp [hhost] at hlives
    | some hostId =>
      simp only [hhost] at hlives ⊢
      split_ifs at hlives ⊢
      intro p' hlive hunused
      rw [Finset.mem_insert, not_or] at hunused
      dsimp only
      rw [Table.get_erase, if_neg hunused.1]
      exact hcol p' hlive hunused.2

/-- Planes that could not be sent were not there, or the session ends. -/
theorem processParams_none {duplicated : Bool}
    (hprocess : Sommelier.processParams c p duplicated = (none, c')) :
    c.pendingParams.get p = none ∨ c'.fatalProtocolError = true := by
  unfold Sommelier.processParams at hprocess
  cases hparams : c.pendingParams.get p with
  | none => exact .inl rfl
  | some params =>
    right
    simp only [hparams] at hprocess
    split at hprocess
    · exact (Prod.mk.inj hprocess).2 ▸ rfl
    · split_ifs at hprocess
      · exact (Prod.mk.inj hprocess).2 ▸ rfl
      · simp at hprocess

theorem onAdd (hcol : Collecting c) (p : ℕ) (param : PendingParam) (duplicated : Bool) :
    Collecting (Sommelier.onAdd c p param duplicated).2 := by
  unfold Sommelier.onAdd
  split_ifs
  · exact hcol
  · exact hcol
  · exact hcol
  · exact hcol
  · intro p' hlive hunused
    have hcollected := hcol p' hlive hunused
    dsimp only
    rw [Table.get_modify]
    split_ifs
    · simpa using hcollected
    · exact hcollected

theorem onCreate (hcol : Collecting c) (p : ℕ) (width height : ℤ) (format : ℕ)
    (duplicated : Bool)
    (hlives : (Sommelier.onCreate c p width height format duplicated).2.fatalProtocolError =
      false) : Collecting (Sommelier.onCreate c p width height format duplicated).2 := by
  have hprocess := hcol.processParams p duplicated
  unfold Sommelier.onCreate at hlives ⊢
  split_ifs at hlives ⊢
  · simp [Context.queueProtocolError] at hlives
  · simp [Context.queueProtocolError, discardPendingParams] at hlives
  · rcases hs : Sommelier.processParams c p duplicated with ⟨_ | hostParamsId, c'⟩
    · rw [hs] at hprocess hlives
      exact hprocess hlives
    · rw [hs] at hprocess hlives
      dsimp only at hprocess hlives ⊢
      cases hpending : c'.pendingNativeCreates.get hostParamsId with
      | some pending => simp [hpending] at hlives
      | none =>
        rw [hpending] at hlives
        exact hprocess hlives

theorem onCreateImmed (hcol : Collecting c) {p buffer : ℕ} {width height : ℤ} {format : ℕ}
    {duplicated : Bool} {result : Action × Context}
    (havail : c.shadowTable.isGuestIdAvailable buffer = true)
    (hresult : Sommelier.onCreateImmed c p buffer width height format duplicated = some result)
    (hlives : result.2.fatalProtocolError = false) : Collecting result.2 := by
  unfold Sommelier.onCreateImmed at hresult
  split_ifs at hresult with hused hnone
  · obtain rfl := Option.some.inj hresult
    simp [Context.queueProtocolError] at hlives
  · exact Option.some.inj hresult ▸ hcol
  · obtain rfl := Option.some.inj hresult
    exact hcol.processParams p duplicated hlives
  · obtain rfl := Option.some.inj hresult
    simp [Context.queueProtocolError, discardPendingParams] at hlives
  · obtain ⟨⟨hostBufferId, t⟩, halloc, hresult⟩ := Option.bind_eq_some_iff.mp hresult
    obtain ⟨hfree, -, n, rfl⟩ := ShadowTable.allocateHostId_eq_some halloc
    dsimp only at hresult
    have hbuffer := hcol.of_spares (.registerBuffer havail hfree n
      ((ShadowTable.guestObjectVersion { c.shadowTable with nextHostId := n } p).getD
        unknownObjectVersion))
    have hprocess := hbuffer.processParams p duplicated
    rcases hs : Sommelier.processParams _ p duplicated with ⟨_ | hostParamsId, c'⟩
    · rw [hs] at hresult
      obtain rfl := Option.some.inj hresult
      rcases processParams_none hs with hunset | hfatal
      · exact absurd hunset (by simpa using hnone)
      · simp [hfatal] at hlives
    · rw [hs] at hresult hprocess
      obtain rfl := Option.some.inj hresult
      simp only [Bool.or_eq_false_iff] at hlives
      exact (hprocess hlives.1).of_spares (.of_eq rfl rfl rfl rfl rfl fun _ => id)

/-- New parameters collect planes. -/
theorem createParams (hcol : Collecting c) (hc : Consistent Set.univ c) {factory : ℕ}
    (havail : c.shadowTable.isGuestIdAvailable p = true)
    (h' : mapNewId (onCreateParams c p).2 factory p .zwpLinuxBufferParamsV1 = some c') :
    Collecting c' := by
  have hbooks : Consistent Set.univ (onCreateParams c p).2 :=
    hc.frame ⟨rfl, rfl, rfl, rfl, fun _ => rfl⟩ fun _ => .inl
  obtain ⟨hostId, -, -, -, hsame, -⟩ := mapNewId_live hbooks havail h'
  obtain ⟨⟨_, t⟩, -, heq⟩ := Option.bind_eq_some_iff.mp h'
  obtain rfl := Option.some.inj heq
  intro p' hlive hunused
  simp only [Context.queue, onCreateParams, Table.get_set, Finset.mem_erase] at hunused ⊢
  split_ifs with hp
  · simp
  · refine hcol p' ?_ fun hmem => hunused ⟨hp, hmem⟩
    rw [Context.liveParams, hsame.liveHost hp] at hlive
    exact hlive

theorem destroyParams (hcol : Collecting c) (p : ℕ) :
    Collecting (destroyPlain (paramsOnDestroy c p).2 p) := by
  have hbooks : (paramsOnDestroy c p).2.shadowTable = c.shadowTable ∧
      (paramsOnDestroy c p).2.usedDmabufParams = c.usedDmabufParams.erase p ∧
      (paramsOnDestroy c p).2.pendingParams = c.pendingParams.erase p := by
    unfold paramsOnDestroy
    dsimp only
    cases c.shadowTable.getHostId p with
    | none => exact ⟨rfl, rfl, rfl⟩
    | some hostId =>
      dsimp only
      cases c.pendingNativeCreates.get hostId <;> exact ⟨rfl, rfl, rfl⟩
  obtain ⟨htable, hused, hpending⟩ := hbooks
  obtain ⟨hsame, hgone, -⟩ := destroyPlain_live (paramsOnDestroy c p).2 p
  obtain ⟨t, traffic, heq⟩ := destroyPlain_eq (paramsOnDestroy c p).2 p
  intro p' hlive hunused
  have hne : p' ≠ p := by
    rintro rfl
    exact hlive (hgone _)
  rw [Context.liveParams, hsame.liveHost hne, htable] at hlive
  rw [heq, hused, Finset.mem_erase] at hunused
  rw [heq, hpending, Table.get_erase, if_neg hne]
  exact hcol p' hlive fun hmem => hunused ⟨hne, hmem⟩

theorem new : Collecting Context.new := by
  intro p hlive
  obtain ⟨h, hh⟩ := Option.ne_none_iff_exists'.mp hlive
  obtain ⟨hi, -, -⟩ := ShadowTable.liveHost_eq_some.mp hh
  simp only [Context.new, ShadowTable.new, ShadowTable.mapId, ShadowTable.trackInterface,
    Table.get_set] at hi
  split_ifs at hi
  · simp at hi
  · simp at hi

/-- After one message the guest may name no parameters that are neither used nor collecting. -/
theorem step {maps : DamageMapping} {m : Message} (hcol : Collecting c)
    (hc : Consistent Set.univ c) (h' : Sommelier.step maps c m = some c') : Collecting c' := by
  by_cases hm : m.isAboutParams = false
  · exact hcol.of_spares (step_sparesParams hc hm h')
  cases m with
  | createParams factory params =>
    rw [DmabufSession.step_request rfl rfl] at h'
    obtain ⟨hallowed, hmap⟩ := guarded_eq_some.mp h'
    exact hcol.createParams hc (Bool.and_eq_true_iff.mp hallowed).2 hmap
  | addPlane params plane duplicated =>
    rw [DmabufSession.step_request rfl rfl] at h'
    obtain ⟨-, rfl⟩ := settle_eq_some.mp (guarded_eq_some.mp h').2
    exact hcol.onAdd params plane duplicated
  | create params width height format duplicated =>
    rw [DmabufSession.step_request rfl rfl] at h'
    obtain ⟨hlives, rfl⟩ := settle_eq_some.mp (guarded_eq_some.mp h').2
    exact hcol.onCreate params width height format duplicated hlives
  | createImmed params buffer width height format duplicated =>
    rw [DmabufSession.step_request rfl rfl] at h'
    obtain ⟨hallowed, h'⟩ := guarded_eq_some.mp h'
    obtain ⟨result, hresult, hsettle⟩ := Option.bind_eq_some_iff.mp h'
    obtain ⟨hlives, rfl⟩ := settle_eq_some.mp hsettle
    exact hcol.onCreateImmed (Bool.and_eq_true_iff.mp hallowed).2 hresult hlives
  | destroyParams params =>
    rw [DmabufSession.step_request rfl rfl] at h'
    obtain ⟨-, rfl⟩ := settle_eq_some.mp (guarded_eq_some.mp h').2
    exact hcol.destroyParams params
  | created params buffer =>
    rw [DmabufSession.step_event rfl, eventStep] at h'
    obtain rfl | ⟨-, -, h'⟩ := Sommelier.deliver_eq_some (guarded_eq_some.mp h').2
    · exact hcol
    · obtain ⟨havail, h'⟩ := guarded_eq_some.mp h'
      exact hcol.of_spares (.created havail h')
  | failed params =>
    rw [DmabufSession.step_event rfl, eventStep] at h'
    obtain rfl | ⟨-, -, h'⟩ := Sommelier.deliver_eq_some (guarded_eq_some.mp h').2
    · exact hcol
    · obtain ⟨-, rfl⟩ := settle_eq_some.mp h'
      exact hcol.of_spares (.onFailed c params)
  | _ => exact absurd rfl hm

end Collecting

theorem collecting_of_reachable {maps : DamageMapping} (hr : (objectSystem maps).Reachable c) :
    PlanesApart c ∧ Collecting c := by
  have hall : (PlanesApart c ∧ Collecting c) ∧ Consistent Set.univ c := by
    refine hr.invariant (I := fun c => (PlanesApart c ∧ Collecting c) ∧ Consistent Set.univ c)
      ?_ ?_
    · rintro c rfl
      exact ⟨⟨.new, .new⟩, consistent_new⟩
    · rintro c m c' _ ⟨⟨hapart, hcol⟩, hc⟩ - hstep
      exact ⟨⟨hapart.step hc hstep, hcol.step hc hstep⟩,
        step_consistent hc (Set.subset_univ _) hstep⟩
  exact hall.1

/-! ## What the guest is told -/

namespace DmabufSession
variable {s s' : DmabufSession} {dups flags : ℕ} {create : ℕ → ParamsRequest}

@[simp] theorem processParams_errors (s : DmabufSession) (p dups : ℕ)
    (create : ℕ → ParamsRequest) : (s.processParams p dups create).2.errors = s.errors := by
  unfold processParams
  cases s.context.pendingParams.get p with
  | none => rfl
  | some params =>
    dsimp only [takeParams]
    cases s.context.shadowTable.getHostId p with
    | none => rfl
    | some hostId =>
      dsimp only [duplicate]
      split_ifs
      · rfl
      · rw [foldl_queueAdd]
        rfl

/-- Parameters that were not used yet get an error unless the creation is valid. -/
theorem onCreate_errors (hfresh : p ∉ s.context.usedDmabufParams) :
    (s.onCreate p width height format flags dups).2.errors =
      if validParams s.context p width height format then s.errors
      else (p, paramsErrorCode s.context p width height format) :: s.errors := by
  unfold onCreate
  rw [if_neg hfresh]
  cases hvalid : validParams s.context p width height format with
  | false => rfl
  | true =>
    have herrors := s.processParams_errors p dups (.create · width height format flags)
    simp only [Bool.not_true, Bool.false_eq_true, if_false, if_true]
    rcases hs : s.processParams p dups (.create · width height format flags) with
      ⟨_ | ⟨hostParamsId, syncFds⟩, s'⟩
    · rw [hs] at herrors
      exact herrors
    · rw [hs] at herrors
      dsimp only
      cases s'.context.pendingNativeCreates.get hostParamsId <;> exact herrors

theorem onCreateImmed_errors {buffer : ℕ} {result : Action × DmabufSession}
    (hfresh : p ∉ s.context.usedDmabufParams) (hcollected : s.context.pendingParams.get p ≠ none)
    (hhost : s.context.shadowTable.getHostId p ≠ none)
    (hresult : s.onCreateImmed p buffer width height format flags dups = some result) :
    result.2.errors =
      if validParams s.context p width height format then s.errors
      else (p, paramsErrorCode s.context p width height format) :: s.errors := by
  unfold onCreateImmed at hresult
  rw [if_neg hfresh, if_neg (by simpa using hcollected), if_neg (by simpa using hhost)] at hresult
  cases hvalid : validParams s.context p width height format with
  | false =>
    rw [hvalid] at hresult
    exact Option.some.inj hresult ▸ rfl
  | true =>
    rw [hvalid] at hresult
    rw [if_pos rfl]
    obtain ⟨⟨hostBufferId, t⟩, -, hresult⟩ := Option.bind_eq_some_iff.mp hresult
    dsimp only at hresult
    have herrors := processParams_errors { s with
      context.shadowTable := t.registerObject buffer hostBufferId .wlBuffer
        ((t.guestObjectVersion p).getD unknownObjectVersion)
        ((t.guestObjectVersion p).getD unknownObjectVersion) } p dups
      (.createImmed · hostBufferId width height format flags)
    rcases hs : processParams _ p dups (.createImmed · hostBufferId width height format flags) with
      ⟨_ | ⟨hostParamsId, syncFds⟩, s'⟩
    · rw [hs] at herrors hresult
      exact Option.some.inj hresult ▸ herrors
    · rw [hs] at herrors hresult
      obtain rfl := Option.some.inj hresult
      unfold registerNativeBuffer
      dsimp only
      split_ifs <;> exact herrors

end DmabufSession

/-- The one answer to a creation: one error, whose code is the only one that says what is wrong,
or no error when nothing is. -/
def AnsweredOnce (p : ℕ) (width height : ℤ) (format : ℕ) (collected : Option (List PendingParam))
    (errors errors' : List (ℕ × ℕ)) : Prop :=
  (∃ code, (∀ code', Rejected width height format collected code' ↔ code' = code) ∧
      errors' = (p, code) :: errors) ∨
    (∀ code, ¬ Rejected width height format collected code) ∧ errors' = errors

theorem answeredOnce (hapart : PlanesApart c) (errors : List (ℕ × ℕ)) :
    AnsweredOnce p width height format (c.pendingParams.get p) errors
      (if validParams c p width height format then errors
        else (p, paramsErrorCode c p width height format) :: errors) := by
  cases hvalid : validParams c p width height format with
  | true =>
    refine .inr ⟨fun code hrejected => ?_, rfl⟩
    simp [(hrejected.code_eq hapart rfl).1] at hvalid
  | false =>
    obtain ⟨code, hrejected⟩ := rejected_of_invalid hapart hvalid
    have hcode := (hrejected.code_eq hapart rfl).2
    refine .inl ⟨code, fun code' => ⟨fun hrejected' => ?_, fun heq => heq ▸ hrejected⟩, ?_⟩
    · rw [← (hrejected'.code_eq hapart rfl).2, hcode]
    · rw [← hcode]
      rfl

/-- In every session, whose host follows the rules for object IDs, a parameters object that the
guest may name and has not used gets exactly one answer to a creation, whichever of the two
requests it is. -/
theorem rejection_explained {maps : DamageMapping} {s : DmabufSession}
    (hs : (dmabufSystem maps).Reachable s)
    (hallowed : s.context.senderAllowed p .zwpLinuxBufferParamsV1 = true)
    (hfresh : p ∉ s.context.usedDmabufParams) (flags dups buffer : ℕ) :
    AnsweredOnce p width height format (s.context.pendingParams.get p) s.errors
      (s.onCreate p width height format flags dups).2.errors ∧
    ∀ result, s.onCreateImmed p buffer width height format flags dups = some result →
      AnsweredOnce p width height format (s.context.pendingParams.get p) s.errors
        result.2.errors := by
  obtain ⟨hapart, hcol⟩ := collecting_of_reachable (dmabufSystem_refines hs)
  refine ⟨?_, fun result hresult => ?_⟩
  · rw [onCreate_errors hfresh]
    exact answeredOnce hapart s.errors
  · -- what the guest may name is on the host, and its planes are collected
    obtain ⟨-, -, hhost⟩ := senderAllowed_iff.mp hallowed
    obtain ⟨h, hh⟩ := hhost.resolve_right (by simp [Interface.isLocalOnly])
    have hcollected := hcol p (by simp [liveParams_of_allowed hallowed hh]) hfresh
    rw [onCreateImmed_errors hfresh hcollected (by simp [ShadowTable.getHostId, hh]) hresult]
    exact answeredOnce hapart s.errors

/-- A row of four bytes is too short for two pixels. -/
theorem rejection_explained_bounds : ∃ s, (dmabufSystem .unscaled).run .new importRun = some s ∧
    (s.onCreate 5 2 1 0x34325258 0 1).2.errors = (5, 6) :: s.errors := by
  have hrun : ((dmabufSystem .unscaled).run .new importRun).map (fun s =>
      (s.context.pendingParams.get 5, decide (5 ∈ s.context.usedDmabufParams),
        s.context.senderAllowed 5 .zwpLinuxBufferParamsV1)) =
      some (some [⟨0, 0, 4, 0⟩], false, true) := by decide +kernel
  obtain ⟨s, hs, heq⟩ := Option.map_eq_some_iff.mp hrun
  simp only [Prod.mk.injEq, decide_eq_false_iff_not] at heq
  obtain ⟨hcollected, hfresh, hallowed⟩ := heq
  refine ⟨s, hs, ?_⟩
  have hrejected : Rejected 2 1 0x34325258 (s.context.pendingParams.get 5) 6 := by
    rw [hcollected]
    exact @Rejected.bounds 2 1 0x34325258 [] [] ⟨0, 0, 4, 0⟩ (by decide) (by decide) (by decide)
      (by decide) (by simp) (by decide) (by decide)
  rcases (rejection_explained (.run (.init rfl) hs) hallowed hfresh 0 1 7).1 with
    ⟨code, honly, herrors⟩ | ⟨hnone, -⟩
  · rw [herrors, (honly 6).mp hrejected]
  · exact absurd hrejected (hnone 6)

end Sommelier
