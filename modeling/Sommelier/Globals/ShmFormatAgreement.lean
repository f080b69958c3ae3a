import Sommelier.Globals.ShmFormats

/-!
# The formats of `wl_shm`

A buffer of a pool must have a format that was advertised to the `wl_shm` object which the
pool was created from. Advertisements are recorded for each object; the check asks what the
host can take now.

## Main definitions

* `PoolSession`: a session, and the `wl_shm` that each pool of the guest was created from.
* `FormatsAgree`: what was advertised is what is accepted.
* `Drifts`: a format is lost, or becomes possible, while an object of the guest stays.
* `shm_formats_agree`: the two agree as long as nothing drifts.
-/
namespace Sommelier

/-- A session, and the `wl_shm` that each pool was created from. -/
structure PoolSession where
  session : GlobalSession
  source : ℕ → Option ℕ

namespace PoolSession

def new (options : GlobalOptions) : PoolSession where
  session := .new options
  source := fun _ => none

/-- Pools are created from a `wl_shm`, until they or it are gone. -/
def trace (s : PoolSession) : GlobalMessage → ℕ → Option ℕ
  | .createPool shm pool _ => Function.update s.source pool (some shm)
  | .destroyPool pool => Function.update s.source pool none
  | .releaseShm shm => fun pool => (s.source pool).filter (· != shm)
  | _ => s.source

def step (s : PoolSession) (m : GlobalMessage) : Option PoolSession :=
  (s.session.step m).map fun session => { session, source := s.trace m }

end PoolSession

/-- Sessions with their pools. -/
def poolSystem (options : GlobalOptions) : TransitionSystem PoolSession GlobalMessage where
  init s := s = .new options
  step := PoolSession.step

/-- A `wl_shm` of the guest whose global was not removed since. -/
def GlobalContext.LiveShm (c : GlobalContext) (shm : ℕ) : Prop :=
  c.shadowTable.getInterface shm = some .wlShm ∧ shm ∉ c.staleShmGuestObjects

/-- Formats are advertised once, and buffers of a live `wl_shm` are accepted exactly in the
advertised formats. -/
structure FormatsAgree (s : PoolSession) : Prop where
  once : ∀ shm format, s.session.context.shadowTable.getInterface shm = some .wlShm →
    (sinceFreed shm s.session.context.guestEvents).count (.shmFormat shm format) ≤ 1
  accepted : ∀ pool shm format, s.source pool = some shm → s.session.context.LiveShm shm →
    (s.session.context.createBufferFormatCheck pool format = .passed ↔
      .shmFormat shm format ∈ sinceFreed shm s.session.context.guestEvents)

namespace GlobalContext

/-- The message ends what the proxy has bound from a global of that name. -/
def Resets (c : GlobalContext) (m : GlobalMessage) (n : ℕ) : Prop :=
  match m with
  | .globalRemove r n' => n' = n ∧ n ∈ c.namesOf r ∧ c.ledger.IsLast r n
  | .global r n' _ version =>
    n' = n ∧ version ≠ 0 ∧ ¬ c.ledger.Lists r n ∧ c.ledger.Restarts r n
  | _ => False

/-- The proxy binds its own dma-buf object. -/
def BindsDmabuf (c : GlobalContext) (m : GlobalMessage) : Prop :=
  ∃ r n version, m = .global r n .zwpLinuxDmabufV1 version ∧ version ≠ 0 ∧
    ¬ c.ledger.Lists r n ∧ c.options.shouldBindInternalDmabuf = true ∧
    (c.hostDmabufId = none ∨ c.ledger.Restarts r n ∧ c.hostDmabufGlobalName = some n)

/-- A format is possible only as long as the proxy has its dma-buf object. -/
def NeedsDmabuf (c : GlobalContext) (format : ℕ) : Prop :=
  format = wlShmFormatNv12 ∧ c.options.virtwaylandChannel = none

/-- A format that was possible is lost with the dma-buf object of the proxy. -/
def LosesFormat (c : GlobalContext) (m : GlobalMessage) : Prop :=
  ∃ n format, c.Resets m n ∧ c.hostDmabufGlobalName = some n ∧
    supportedShmFormat format = true ∧ c.guestShmFormatAvailable format = true ∧
    (mandatoryShmFormats.contains format = false ∧ format ∈ c.hostDmabufShmFormats ∧
        format ∉ c.hostWlShmFormats ∨
      c.NeedsDmabuf format ∧ ¬ c.BindsDmabuf m)

/-- A format that the host's `wl_shm` reported becomes possible with a dma-buf object. -/
def GainsFormat (c : GlobalContext) (m : GlobalMessage) : Prop :=
  c.BindsDmabuf m ∧ c.hostDmabufId = none ∧ c.NeedsDmabuf wlShmFormatNv12 ∧
    c.options.gpuAccel = true ∧ c.options.allocator = true ∧
    wlShmFormatNv12 ∈ c.hostShmFormats

end GlobalContext

/-- The formats change under a `wl_shm` of the guest whose own global stays. -/
def Drifts (c : GlobalContext) (m : GlobalMessage) : Prop :=
  (∃ shm, c.LiveShm shm) ∧ (∀ n, c.Resets m n → c.hostShmGlobalName ≠ some n) ∧
    (c.LosesFormat m ∨ c.GainsFormat m)

/-! ## The invariant -/

/-- What is sent to the `wl_shm` objects of the guest, and where pools come from. -/
structure Matched (c : GlobalContext) (source : ℕ → Option ℕ) : Prop where
  formats : ∀ g, (c.shmGuestFormats.get g).isSome = true →
    c.shadowTable.interfaces.get g = some .wlShm ∧ c.shadowTable.guestToHost.get g = none
  objects : ∀ g, c.shadowTable.interfaces.get g = some .wlShm →
    (c.shmGuestFormats.get g).isSome = true
  pools : ∀ p, (c.pools.get p).isSome = true →
    c.shadowTable.interfaces.get p = some .wlShmPool ∧ c.shadowTable.guestToHost.get p = none
  stalePools : ∀ p ∈ c.staleShmPools, (c.pools.get p).isSome = true
  advertised : c.FormatsAdvertised
  sent : c.FormatsSent
  fresh : c.FreshUnsent
  source : ∀ p shm, source p = some shm → shm ∉ c.staleShmGuestObjects →
    c.pools.get p = some shm ∧ p ∉ c.staleShmPools ∧ (c.shmGuestFormats.get shm).isSome = true

theorem GlobalContext.available_iff (c : GlobalContext) (f : ℕ) :
    c.guestShmFormatAvailable f = true ↔
      (mandatoryShmFormats.contains f = true ∨ f ∈ c.hostShmFormats) ∧
        (f ≠ wlShmFormatNv12 ∨ c.options.virtwaylandChannel.isSome = true ∨
          c.options.gpuAccel = true ∧ c.hostDmabufId.isSome = true ∧
            c.options.allocator = true) := by
  simp only [GlobalContext.guestShmFormatAvailable, Bool.and_eq_true, Bool.or_eq_true,
    decide_eq_true_eq, bne_iff_ne, and_assoc, or_assoc]

namespace GlobalContext
variable {c : GlobalContext} {f : ℕ} {possible : Prop}

theorem or_of_not_needsDmabuf (h : ¬ c.NeedsDmabuf f) :
    f ≠ wlShmFormatNv12 ∨ c.options.virtwaylandChannel.isSome = true ∨ possible := by
  by_cases hf : f = wlShmFormatNv12
  · refine .inr (.inl ?_)
    rw [Option.isSome_iff_ne_none]
    exact fun hchannel => h ⟨hf, hchannel⟩
  · exact .inl hf

theorem possible_of_needsDmabuf (h : c.NeedsDmabuf f) (hpossible :
    f ≠ wlShmFormatNv12 ∨ c.options.virtwaylandChannel.isSome = true ∨ possible) : possible := by
  obtain ⟨hf, hchannel⟩ := h
  rw [hchannel] at hpossible
  exact (hpossible.resolve_left (not_not_intro hf)).resolve_left Bool.false_ne_true

end GlobalContext

namespace Matched
open GlobalContext
variable {c c' : GlobalContext} {source : ℕ → Option ℕ} {m : GlobalMessage}

theorem new (options : GlobalOptions) : Matched (.new options) fun _ => none := by
  have hempty : ∀ g, ((∅ : Table ℕ (Finset ℕ)).get g).isSome = true → False := fun g h => by
    rw [Table.get_empty] at h
    exact Bool.false_ne_true h
  refine ⟨fun g h => (hempty g h).elim, fun g h => ?_, fun p h => ?_, fun p h => ?_, ?_, ?_, ?_,
    fun _ _ => nofun⟩
  · simp only [GlobalContext.new, ShadowTable.mapId, ShadowTable.trackInterface, Table.get_set] at h
    split_ifs at h
    · exact absurd (Option.some.inj h) (by decide)
    · exact absurd h.symm (Option.some_ne_none _)
  · rw [show (GlobalContext.new options).pools = ∅ from rfl, Table.get_empty] at h
    exact absurd h Bool.false_ne_true
  · exact absurd h (Finset.notMem_empty p)
  · intro g advertised h
    exact (hempty g (Option.isSome_of_eq_some h)).elim
  · intro g f advertised h
    exact (hempty g (Option.isSome_of_eq_some h)).elim
  · intro g f _ _
    exact List.not_mem_nil

/-- Objects of the proxy stay until a message destroys them. -/
theorem stays (hacts : Acts c m c') {g : ℕ} {i : Interface}
    (h : c.shadowTable.interfaces.get g = some i ∧ c.shadowTable.guestToHost.get g = none)
    (hm : m.destroyed ≠ some (g, i)) :
    (c'.shadowTable.interfaces.get g = some i ∧ c'.shadowTable.guestToHost.get g = none) ∧
      ∀ told, c'.guestEvents = told ++ c.guestEvents → .deleteId g ∉ told := by
  obtain ⟨hi, hg, hextends⟩ := hacts.effect.stays h.1 h.2 hm
  exact ⟨⟨hi, hg⟩, fun told htold => not_freed (hextends 0) htold⟩

/-- Messages that send no format, and leave the objects and pools as they are. -/
theorem quiet (hc : Matched c source) (hacts : Acts c m c')
    (hnew : ∀ g, m.created ≠ some (g, .wlShm)) (hshm : ∀ g, m.destroyed ≠ some (g, .wlShm))
    (hpool : ∀ p, m.destroyed ≠ some (p, .wlShmPool))
    (hformats : c'.shmGuestFormats = c.shmGuestFormats) (hpools : c'.pools = c.pools)
    (hstale : c.staleShmGuestObjects ⊆ c'.staleShmGuestObjects)
    (hstalePools : ∀ p ∈ c'.staleShmPools, p ∈ c.staleShmPools ∨ (c.pools.get p).isSome = true)
    (hkeep : ∀ g, (c.shmGuestFormats.get g).isSome = true → g ∉ c'.staleShmGuestObjects →
      c'.staleShmPools = c.staleShmPools ∧ ∀ f, supportedShmFormat f = true →
        c'.guestShmFormatAvailable f = c.guestShmFormatAvailable f)
    (hunsent : Silent GuestEvent.isShmFormat c c') : Matched c' source := by
  obtain ⟨told, hevents, hsilent⟩ := hunsent
  have htold : ∀ g f, .shmFormat g f ∉ told := fun g f hmem =>
    absurd (hsilent _ hmem) Bool.true_eq_false.mp
  constructor
  case formats =>
    intro g hg
    rw [hformats] at hg
    exact (stays hacts (hc.formats g hg) (hshm g)).1
  case objects =>
    intro g hi
    rw [hformats]
    rcases hacts.effect.origin hi with hi | ⟨hcreated, -⟩
    · exact hc.objects g hi
    · exact absurd hcreated (hnew g)
  case pools =>
    intro p hp
    rw [hpools] at hp
    exact (stays hacts (hc.pools p hp) (hpool p)).1
  case stalePools =>
    intro p hp
    rw [hpools]
    exact (hstalePools p hp).elim (hc.stalePools p) id
  case advertised =>
    intro g advertised hg hnot f
    rw [hformats] at hg
    obtain ⟨-, hsame⟩ := hkeep g (Option.isSome_of_eq_some hg) hnot
    rw [hc.advertised g advertised hg (fun h => hnot (hstale h)) f]
    exact and_congr_right fun hf => by rw [hsame f hf]
  case sent =>
    intro g f advertised hg
    rw [hformats] at hg
    obtain ⟨-, hfreed⟩ := stays hacts (hc.formats g (Option.isSome_of_eq_some hg)) (hshm g)
    rw [hevents, count_sinceFreed (hfreed told hevents), List.count_eq_zero.mpr (htold g f),
      Nat.zero_add]
    exact hc.sent g f advertised hg
  case fresh => exact hc.fresh.step hacts hevents fun g f hmem => absurd hmem (htold g f)
  case source =>
    intro p shm hp hnot
    obtain ⟨hpool, hfresh, hshm⟩ := hc.source p shm hp fun h => hnot (hstale h)
    rw [hformats, hpools, (hkeep shm hshm hnot).1]
    exact ⟨hpool, hfresh, hshm⟩

/-- Messages that leave the formats alone. -/
theorem keeps (hc : Matched c source) (hacts : Acts c m c') (hkeeps : Keeps c c')
    (hnew : ∀ g, m.created ≠ some (g, .wlShm)) (hshm : ∀ g, m.destroyed ≠ some (g, .wlShm))
    (hpool : ∀ p, m.destroyed ≠ some (p, .wlShmPool)) : Matched c' source := by
  have havailable : ∀ f, c'.guestShmFormatAvailable f = c.guestShmFormatAvailable f := by
    intro f
    have hhost : c'.hostShmFormats = c.hostShmFormats := congrArg ShmPart.hostFormats hkeeps.shm
    have hid : c'.hostDmabufId = c.hostDmabufId := congrArg ShmPart.dmabufId hkeeps.shm
    rw [guestShmFormatAvailable, guestShmFormatAvailable, hhost, hacts.options, hid]
  have hstalePools : c'.staleShmPools = c.staleShmPools := congrArg ShmPart.stalePools hkeeps.shm
  have hstale : c'.staleShmGuestObjects = c.staleShmGuestObjects :=
    congrArg ShmPart.staleObjects hkeeps.shm
  refine hc.quiet hacts hnew hshm hpool (congrArg ShmPart.guestFormats hkeeps.shm)
    (congrArg ShmPart.pools hkeeps.shm) (hstale ▸ Finset.Subset.refl _) (fun p hp => ?_)
    (fun g _ _ => ⟨hstalePools, fun f _ => havailable f⟩) hkeeps.unsent
  exact .inl (hstalePools ▸ hp)

/-- Messages that may end what the proxy has bound from a global, and bind from it again. -/
theorem resets {n : ℕ} {i : Interface} {ended : Prop} [Decidable ended] {p : ShmPart}
    (hc : Matched c source) (hacts : Acts c m c') (hdrifts : ¬ Drifts c m)
    (hnew : ∀ g, m.created ≠ some (g, .wlShm)) (hdestroyed : m.destroyed = none)
    (hended : ∀ n', c.Resets m n' → ended ∧ n' = n) (hended' : ended → c.Resets m n)
    (hbinds : (if ended then c.shmPart.reset n else c.shmPart).Binds n i p)
    (hdmabuf : i = .zwpLinuxDmabufV1 → c.options.shouldBindInternalDmabuf = true →
      (if ended then c.shmPart.reset n else c.shmPart).dmabufId = none → c.BindsDmabuf m)
    (hdmabuf' : c.BindsDmabuf m → i = .zwpLinuxDmabufV1 ∧
      c.options.shouldBindInternalDmabuf = true)
    (hp : c'.shmPart = p) (hunsent : Silent GuestEvent.isShmFormat c c') : Matched c' source := by
  generalize hq : (if ended then c.shmPart.reset n else c.shmPart) = q at hbinds hdmabuf
  obtain ⟨hformats, hpools, hstale, hstalePools, hhost⟩ := ShmPart.rest_of_binds hbinds
  obtain ⟨hsubset, hpool, hall⟩ := ShmPart.reset_stale c.shmPart n
  have hq' : q.guestFormats = c.shmGuestFormats ∧ q.pools = c.pools ∧ q.options = c.options := by
    rw [← hq]
    split_ifs
    · exact c.shmPart.reset_formats n
    · exact ⟨rfl, rfl, rfl⟩
  have hstale' : c'.staleShmGuestObjects = q.staleObjects :=
    (congrArg ShmPart.staleObjects hp).trans hstale
  have hstalePools' : c'.staleShmPools = q.stalePools :=
    (congrArg ShmPart.stalePools hp).trans hstalePools
  have hhost' : c'.hostShmFormats = q.hostFormats := (congrArg ShmPart.hostFormats hp).trans hhost
  have hid : c'.hostDmabufId = p.dmabufId := congrArg ShmPart.dmabufId hp
  refine hc.quiet hacts hnew (fun g h => ?_) (fun pool h => ?_)
    ((congrArg ShmPart.guestFormats hp).trans (hformats.trans hq'.1))
    ((congrArg ShmPart.pools hp).trans (hpools.trans hq'.2.1)) ?_ ?_ ?_ hunsent
  · exact Option.some_ne_none _ (h.symm.trans hdestroyed)
  · exact Option.some_ne_none _ (h.symm.trans hdestroyed)
  · rw [hstale', ← hq]
    split_ifs
    · exact hsubset
    · exact Finset.Subset.refl _
  · intro pool hmem
    rw [hstalePools', ← hq] at hmem
    split_ifs at hmem
    · exact hpool pool hmem
    · exact .inl hmem
  intro g hg hnot
  rw [hstale', ← hq] at hnot
  -- the global of the object itself is not reset, so nothing drifts
  have hshm : ended → c.hostShmGlobalName ≠ some n := by
    intro h hname
    rw [if_pos h] at hnot
    exact hnot (hall hname g hg)
  have hq : q = if ended ∧ c.hostDmabufGlobalName = some n then c.shmPart.releaseDmabuf
      else c.shmPart := by
    rw [← hq]
    by_cases h : ended
    · rw [if_pos h, ShmPart.reset_of_ne (hshm h)]
      simp only [h, true_and]
      rfl
    · simp only [h, false_and, if_false]
  have hlive : c.LiveShm g := by
    refine ⟨(hc.formats g hg).1, fun hmem => hnot ?_⟩
    split_ifs
    · exact hsubset hmem
    · exact hmem
  have hresets : ∀ n', c.Resets m n' → c.hostShmGlobalName ≠ some n' := by
    intro n' h
    obtain ⟨h, rfl⟩ := hended n' h
    exact hshm h
  have hkept : ¬ (c.LosesFormat m ∨ c.GainsFormat m) := fun h => hdrifts ⟨⟨g, hlive⟩, hresets, h⟩
  refine ⟨?_, fun f hf => ?_⟩
  · rw [hstalePools', hq]
    split_ifs <;> rfl
  have hid' : q.dmabufId = if ended ∧ c.hostDmabufGlobalName = some n then none
      else c.hostDmabufId := by
    rw [hq]
    split_ifs <;> rfl
  have hbound := ShmPart.dmabufId_of_binds hbinds
  rw [Bool.eq_iff_iff, available_iff, available_iff, hhost', hid, hacts.options]
  constructor
  · -- what becomes possible was possible, or the object of the proxy is new
    rintro ⟨hsupported, hneeds⟩
    have hmem : f ∈ q.hostFormats → f ∈ c.hostShmFormats := by
      rw [hq]
      split_ifs
      · exact fun h => Finset.mem_of_mem_filter f h
      · exact id
    refine ⟨hsupported.imp_right hmem, ?_⟩
    by_cases hneed : c.NeedsDmabuf f
    swap
    · exact or_of_not_needsDmabuf hneed
    obtain ⟨hgpu, hsome, hallocator⟩ := possible_of_needsDmabuf hneed hneeds
    refine .inr (.inr ⟨hgpu, ?_, hallocator⟩)
    by_contra hnone
    rw [Bool.not_eq_true, Option.isSome_eq_false_iff, Option.isNone_iff_eq_none] at hnone
    have hqnone : q.dmabufId = none := by
      rw [hid', hnone, ite_self]
    rcases hbound with h | ⟨-, hi, hbind⟩
    · rw [h, hqnone] at hsome
      exact Bool.false_ne_true hsome
    · obtain ⟨rfl, hchannel⟩ := hneed
      have hnv12 : wlShmFormatNv12 ∈ q.hostFormats := hsupported.resolve_left (by decide)
      exact hkept (.inr ⟨hdmabuf hi (hq'.2.2 ▸ hbind) hqnone, hnone, ⟨rfl, hchannel⟩, hgpu,
        hallocator, hmem hnv12⟩)
  · -- what was possible is lost only with the object of the proxy
    rintro ⟨hsupported, hneeds⟩
    have havailable := (available_iff c f).mpr ⟨hsupported, hneeds⟩
    by_cases hlost : ended ∧ c.hostDmabufGlobalName = some n
    · rw [if_pos hlost] at hq hid'
      have hnot := not_or.mp fun h =>
        hkept (.inl ⟨n, f, hended' hlost.1, hlost.2, hf, havailable, h⟩)
      refine ⟨?_, ?_⟩
      · by_cases hmandatory : mandatoryShmFormats.contains f = true
        · exact .inl hmandatory
        · refine .inr (hq ▸ Finset.mem_filter.mpr ⟨hsupported.resolve_left hmandatory, ?_⟩)
          by_contra hboth
          rw [not_or, not_not] at hboth
          exact hnot.1 ⟨Bool.eq_false_iff.mpr hmandatory, hboth⟩
      · by_cases hneed : c.NeedsDmabuf f
        swap
        · exact or_of_not_needsDmabuf hneed
        obtain ⟨hgpu, -, hallocator⟩ := possible_of_needsDmabuf hneed hneeds
        obtain ⟨hi, hbind⟩ := hdmabuf' (by_contra fun h => hnot.2 ⟨hneed, h⟩)
        exact .inr (.inr ⟨hgpu, ShmPart.bound_of_binds hbinds hi (hq'.2.2.symm ▸ hbind) hid',
          hallocator⟩)
    · rw [if_neg hlost] at hq hid'
      refine ⟨hsupported.imp_right fun h => hq ▸ h, hneeds.imp_right fun h => h.imp_right ?_⟩
      rintro ⟨hgpu, hsome, hallocator⟩
      refine ⟨hgpu, ?_, hallocator⟩
      rcases hbound with h | ⟨hnone, -⟩
      · rw [h, hid']
        exact hsome
      · rw [← hid', hnone] at hsome
        exact absurd hsome Bool.false_ne_true

/-- Reports of formats. -/
theorem reported {c₁ : GlobalContext} (hc : Matched c source) (hacts : Acts c m c')
    (hnew : m.created = none) (hdestroyed : m.destroyed = none) (hreports : Reports c c₁)
    (hkeeps : Keeps c₁ c') : Matched c' source := by
  obtain ⟨told₁, hevents₁, htold₁⟩ := hreports.told
  obtain ⟨told₂, hevents₂, hsilent₂⟩ := hkeeps.unsent
  rw [hevents₁, ← List.append_assoc] at hevents₂
  have hformats : c'.shmGuestFormats = c₁.shmGuestFormats :=
    congrArg ShmPart.guestFormats hkeeps.shm
  have hobjects : ∀ g, (c'.shmGuestFormats.get g).isSome = (c.shmGuestFormats.get g).isSome :=
    fun g => hformats ▸ hreports.objects g
  have hpools : c'.pools = c.pools := (congrArg ShmPart.pools hkeeps.shm).trans hreports.pools
  have hstalePools : c'.staleShmPools = c.staleShmPools :=
    (congrArg ShmPart.stalePools hkeeps.shm).trans hreports.stalePools
  have hstale₁ : c'.staleShmGuestObjects = c₁.staleShmGuestObjects :=
    congrArg ShmPart.staleObjects hkeeps.shm
  have hstale : c'.staleShmGuestObjects = c.staleShmGuestObjects :=
    hstale₁.trans hreports.staleObjects
  have hdestroyed : ∀ g i, m.destroyed ≠ some (g, i) := fun g i h =>
    Option.some_ne_none _ (h.symm.trans hdestroyed)
  have hunsent : ∀ g f, .shmFormat g f ∉ told₂ := fun g f hmem =>
    absurd (hsilent₂ _ hmem) Bool.true_eq_false.mp
  constructor
  case formats =>
    intro g hg
    exact (stays hacts (hc.formats g (hobjects g ▸ hg)) (hdestroyed g _)).1
  case objects =>
    intro g hi
    rw [hobjects]
    rcases hacts.effect.origin hi with hi | ⟨hcreated, -⟩
    · exact hc.objects g hi
    · exact absurd (hcreated.symm.trans hnew) (Option.some_ne_none _)
  case pools =>
    intro p hp
    exact (stays hacts (hc.pools p (hpools ▸ hp)) (hdestroyed p _)).1
  case stalePools =>
    intro p hp
    exact hpools ▸ hc.stalePools p (hstalePools ▸ hp)
  case advertised =>
    intro g advertised hg hnot f
    have hhost : c'.hostShmFormats = c₁.hostShmFormats := congrArg ShmPart.hostFormats hkeeps.shm
    have hid : c'.hostDmabufId = c₁.hostDmabufId := congrArg ShmPart.dmabufId hkeeps.shm
    have hoptions : c'.options = c₁.options := congrArg ShmPart.options hkeeps.shm
    rw [guestShmFormatAvailable, hhost, hid, hoptions]
    exact hreports.advertised hc.advertised g advertised (hformats ▸ hg) (hstale₁ ▸ hnot) f
  case sent =>
    intro g f advertised hg
    have hsome : (c.shmGuestFormats.get g).isSome = true :=
      hobjects g ▸ Option.isSome_of_eq_some hg
    obtain ⟨-, hfreed⟩ := stays hacts (hc.formats g hsome) (hdestroyed g _)
    have hfreed := hfreed _ hevents₂
    rw [List.mem_append, not_or] at hfreed
    rw [hevents₂, List.append_assoc, count_sinceFreed hfreed.1,
      List.count_eq_zero.mpr (hunsent g f), Nat.zero_add, ← hevents₁]
    exact hreports.sent hc.sent g f advertised (hformats ▸ hg)
  case fresh =>
    refine hc.fresh.step hacts hevents₂ fun g f hmem => ?_
    rcases List.mem_append.mp hmem with hmem | hmem
    · exact absurd hmem (hunsent g f)
    · obtain ⟨g', f', heq, hsome⟩ := htold₁ _ hmem
      obtain ⟨rfl, rfl⟩ := GuestEvent.shmFormat.inj heq
      have hstays := (stays hacts (hc.formats g hsome) (hdestroyed g _)).1
      exact .inl (hstays.1 ▸ Option.some_ne_none _)
  case source =>
    intro p shm hp hnot
    rw [hpools, hstalePools, hobjects]
    exact hc.source p shm hp (hstale ▸ hnot)

/-- A new `wl_shm` of the guest. -/
theorem bind {r n v g : ℕ} (hc : Matched c source) (hacts : Acts c (.bind r n .wlShm v g) c')
    (h : c.requestStep (.bind r n .wlShm v g) = some c') : Matched c' source := by
  obtain ⟨hallowed, h⟩ := GlobalContext.guarded_eq_some h
  obtain ⟨hg, hi⟩ := isGuestIdAvailable_new (Bool.and_eq_true_iff.mp hallowed).2
  obtain ⟨result, hresult, hsettle⟩ := Option.bind_eq_some_iff.mp h
  obtain ⟨hfatal, rfl⟩ := GlobalContext.settle_eq_some hsettle
  unfold onBind at hresult
  dsimp only at hresult
  split_ifs at hresult
  · rw [← Option.some.inj hresult] at hfatal
    exact absurd hfatal Bool.true_eq_false.mp
  have heq := (congrArg Prod.snd (Option.some.inj hresult)).symm
  dsimp only at heq
  rw [registerGuestShm_eq] at heq
  generalize hformats : supportedShmFormats.filter (GlobalContext.guestShmFormatAvailable _) =
    formats at heq
  have hmem : ∀ f, f ∈ formats ↔
      supportedShmFormat f = true ∧ c.guestShmFormatAvailable f = true := by
    intro f
    rw [← hformats, List.mem_filter, supportedShmFormat, List.contains_iff_mem]
    rfl
  have hnodup : formats.Nodup := hformats ▸ List.Nodup.filter _ (by decide)
  clear hformats hresult hfatal hsettle h hallowed
  generalize result.2 = c' at heq hacts ⊢
  have hevents : c'.guestEvents =
      (formats.map (GuestEvent.shmFormat g)).reverse ++ c.guestEvents := heq ▸ rfl
  have hget : ∀ g', c'.shmGuestFormats.get g' =
      if g' = g then some formats.toFinset else c.shmGuestFormats.get g' := fun g' =>
    (congrArg (Table.get · g') (heq ▸ rfl)).trans (Table.get_set ..)
  have htold : ∀ g' f, .shmFormat g' f ∈ (formats.map (GuestEvent.shmFormat g)).reverse →
      g' = g := by
    intro g' f hmem
    obtain ⟨f', -, heq⟩ := List.mem_map.mp (List.mem_reverse.mp hmem)
    exact (GuestEvent.shmFormat.inj heq).1.symm
  have hself : c'.shadowTable.interfaces.get g = some .wlShm ∧
      c'.shadowTable.guestToHost.get g = none := by
    rw [heq]
    exact ⟨by simp [ShadowTable.trackInterfaceWithVersion], hg⟩
  constructor
  case formats =>
    intro g' hg'
    by_cases hne : g' = g
    · exact hne ▸ hself
    · rw [hget, if_neg hne] at hg'
      exact (stays hacts (hc.formats g' hg') (Option.some_ne_none _).symm).1
  case objects =>
    intro g' hi'
    rw [hget]
    split_ifs with hne
    · rfl
    · rcases hacts.effect.origin hi' with hi' | ⟨hcreated, -⟩
      · exact hc.objects g' hi'
      · exact absurd (Prod.mk.inj (Option.some.inj hcreated)).1.symm hne
  case pools =>
    intro p hp
    have hpools : c'.pools = c.pools := heq ▸ rfl
    exact (stays hacts (hc.pools p (hpools ▸ hp)) (Option.some_ne_none _).symm).1
  case stalePools =>
    rw [heq]
    exact hc.stalePools
  case advertised =>
    intro g' advertised hg' hnot f
    have havailable : c'.guestShmFormatAvailable f = c.guestShmFormatAvailable f := heq ▸ rfl
    have hstale : c'.staleShmGuestObjects = c.staleShmGuestObjects := heq ▸ rfl
    rw [havailable]
    rw [hget] at hg'
    split_ifs at hg' with hne
    · rw [← Option.some.inj hg', List.mem_toFinset]
      exact hmem f
    · exact hc.advertised g' advertised hg' (hstale ▸ hnot) f
  case sent =>
    intro g' f advertised hg'
    have hfreed : .deleteId g' ∉ (formats.map (GuestEvent.shmFormat g)).reverse := by
      simp
    rw [hevents, count_sinceFreed hfreed, List.count_reverse]
    rw [hget] at hg'
    split_ifs at hg' with hne
    · subst hne
      have hinjective : Function.Injective (GuestEvent.shmFormat g') := fun f f' h =>
        (GuestEvent.shmFormat.inj h).2
      rw [List.count_map_of_injective _ _ hinjective, List.count_eq_zero.mpr (hc.fresh g' f hi hg),
        Nat.add_zero, ← Option.some.inj hg']
      split_ifs with hf
      · exact List.count_eq_one_of_mem hnodup (List.mem_toFinset.mp hf)
      · exact List.count_eq_zero.mpr fun h => hf (List.mem_toFinset.mpr h)
    · have hzero : (formats.map (GuestEvent.shmFormat g)).count (.shmFormat g' f) = 0 :=
        List.count_eq_zero.mpr fun hmem => hne (htold g' f (List.mem_reverse.mpr hmem))
      rw [hzero, Nat.zero_add]
      exact hc.sent g' f advertised hg'
  case fresh =>
    refine hc.fresh.step hacts hevents fun g' f hmem => ?_
    rw [htold g' f hmem, hself.1]
    exact .inl (Option.some_ne_none _)
  case source =>
    intro p shm hp hnot
    have hstale : c'.staleShmGuestObjects = c.staleShmGuestObjects := heq ▸ rfl
    obtain ⟨hpool, hstalePool, hsome⟩ := hc.source p shm hp (hstale ▸ hnot)
    refine ⟨heq ▸ hpool, heq ▸ hstalePool, ?_⟩
    rw [hget]
    split_ifs
    · rfl
    · exact hsome

/-- A new pool. -/
theorem createPool {shm pool : ℕ} {mapped : Bool} (hc : Matched c source)
    (hacts : Acts c (.createPool shm pool mapped) c')
    (h : c.requestStep (.createPool shm pool mapped) = some c') :
    Matched c' (Function.update source pool (some shm)) := by
  obtain ⟨hallowed, h⟩ := GlobalContext.guarded_eq_some h
  obtain ⟨hshm, havailable⟩ := Bool.and_eq_true_iff.mp hallowed
  obtain ⟨hg, hi⟩ := isGuestIdAvailable_new havailable
  have hsome := hc.objects shm (requestAllowed_interface hshm)
  obtain ⟨hfatal, rfl⟩ := GlobalContext.settle_eq_some h
  clear h hallowed
  revert hfatal hacts
  unfold GlobalContext.onCreatePool
  have hsource : ∀ p shm', Function.update source pool (some shm) p = some shm' →
      p = pool ∧ shm' = shm ∨ p ≠ pool ∧ source p = some shm' := by
    intro p shm' hp
    by_cases hne : p = pool
    · subst hne
      rw [Function.update_self] at hp
      exact .inl ⟨rfl, (Option.some.inj hp).symm⟩
    · rw [Function.update_of_ne hne] at hp
      exact .inr ⟨hne, hp⟩
  split_ifs with hstale hmapped
  · -- pools of a stale object are ignored
    intro _ _
    refine { hc with source := fun p shm' hp hnot => ?_ }
    rcases hsource p shm' hp with ⟨-, rfl⟩ | ⟨-, hp⟩
    · exact absurd hstale hnot
    · exact hc.source p shm' hp hnot
  · intro hfatal
    exact absurd hfatal Bool.true_eq_false.mp
  intro _ hacts
  have hfree : c.pools.get pool = none := by
    by_contra hpool
    obtain ⟨hi', -⟩ := hc.pools pool (Option.isSome_iff_ne_none.mpr hpool)
    exact Option.some_ne_none _ (hi'.symm.trans hi)
  constructor
  case formats =>
    intro g hg
    exact (stays hacts (hc.formats g hg) (Option.some_ne_none _).symm).1
  case objects =>
    intro g hi
    rcases hacts.effect.origin hi with hi | ⟨hcreated, -⟩
    · exact hc.objects g hi
    · exact absurd (Prod.mk.inj (Option.some.inj hcreated)).2 (by decide)
  case pools =>
    intro p hp
    rw [Table.get_set] at hp
    split_ifs at hp with hne
    · subst hne
      exact ⟨by simp [ShadowTable.trackInterfaceWithVersion], hg⟩
    · exact (stays hacts (hc.pools p hp) (Option.some_ne_none _).symm).1
  case stalePools =>
    intro p hp
    rw [Table.get_set]
    split_ifs
    · rfl
    · exact hc.stalePools p hp
  case advertised => exact hc.advertised
  case sent => exact hc.sent
  case fresh =>
    exact hc.fresh.step hacts (List.nil_append _).symm fun _ _ h => absurd h List.not_mem_nil
  case source =>
    intro p shm' hp hnot
    rw [Table.get_set]
    rcases hsource p shm' hp with ⟨rfl, rfl⟩ | ⟨hne, hp⟩
    · rw [if_pos rfl]
      refine ⟨rfl, fun hmem => ?_, hsome⟩
      have hknown := hc.stalePools p hmem
      rw [hfree] at hknown
      exact Bool.false_ne_true hknown
    · rw [if_neg hne]
      exact hc.source p shm' hp hnot

theorem destroyPool {pool : ℕ} (hc : Matched c source) (hacts : Acts c (.destroyPool pool) c')
    (h : c.requestStep (.destroyPool pool) = some c') :
    Matched c' (Function.update source pool none) := by
  obtain ⟨-, h⟩ := GlobalContext.guarded_eq_some h
  have heq := Option.some.inj h
  have hframe := frame_queueLocalDeleteId (c.poolOnDestroy pool).2 pool
  rw [heq] at hframe
  obtain ⟨told, hevents, hsilent⟩ := hframe.unsent
  have hevents : c'.guestEvents = told ++ c.guestEvents := hevents
  have htold : ∀ g f, .shmFormat g f ∉ told := fun g f hmem =>
    absurd (hsilent _ hmem) Bool.true_eq_false.mp
  have hpools : ∀ p, c'.pools.get p = if p = pool then none else c.pools.get p := by
    intro p
    have hpools : c'.pools = c.pools.erase pool := congrArg ShmPart.pools hframe.shm
    rw [hpools, Table.get_erase]
  have hstalePools : c'.staleShmPools = c.staleShmPools.erase pool :=
    congrArg ShmPart.stalePools hframe.shm
  have hformats : c'.shmGuestFormats = c.shmGuestFormats :=
    congrArg ShmPart.guestFormats hframe.shm
  have hstale : c'.staleShmGuestObjects = c.staleShmGuestObjects :=
    congrArg ShmPart.staleObjects hframe.shm
  have hshm : ∀ g, (GlobalMessage.destroyPool pool).destroyed ≠ some (g, .wlShm) := fun g heq =>
    absurd (Prod.mk.inj (Option.some.inj heq)).2 (by decide)
  constructor
  case formats =>
    intro g hg
    exact (stays hacts (hc.formats g (hformats ▸ hg)) (hshm g)).1
  case objects =>
    intro g hi
    rw [hformats]
    rcases hacts.effect.origin hi with hi | ⟨hcreated, -⟩
    · exact hc.objects g hi
    · exact absurd hcreated (Option.some_ne_none _).symm
  case pools =>
    intro p hp
    rw [hpools] at hp
    split_ifs at hp with hne
    · exact absurd hp Bool.false_ne_true
    · refine (stays hacts (hc.pools p hp) fun heq => hne ?_).1
      exact (Prod.mk.inj (Option.some.inj heq)).1.symm
  case stalePools =>
    intro p hp
    rw [hstalePools] at hp
    rw [hpools, if_neg (Finset.ne_of_mem_erase hp)]
    exact hc.stalePools p (Finset.mem_of_mem_erase hp)
  case advertised =>
    intro g advertised hg hnot f
    have hhost : c'.hostShmFormats = c.hostShmFormats := congrArg ShmPart.hostFormats hframe.shm
    have hid : c'.hostDmabufId = c.hostDmabufId := congrArg ShmPart.dmabufId hframe.shm
    rw [guestShmFormatAvailable, hhost, hid, hacts.options]
    exact hc.advertised g advertised (hformats ▸ hg) (hstale ▸ hnot) f
  case sent =>
    intro g f advertised hg
    rw [hformats] at hg
    obtain ⟨-, hfreed⟩ := stays hacts (hc.formats g (Option.isSome_of_eq_some hg)) (hshm g)
    rw [hevents, count_sinceFreed (hfreed told hevents), List.count_eq_zero.mpr (htold g f),
      Nat.zero_add]
    exact hc.sent g f advertised hg
  case fresh => exact hc.fresh.step hacts hevents fun g f hmem => absurd hmem (htold g f)
  case source =>
    intro p shm hp hnot
    by_cases hne : p = pool
    · subst hne
      rw [Function.update_self] at hp
      exact absurd hp.symm (Option.some_ne_none shm)
    · rw [Function.update_of_ne hne] at hp
      obtain ⟨hpool, hstalePool, hsome⟩ := hc.source p shm hp (hstale ▸ hnot)
      rw [hpools, if_neg hne, hformats, hstalePools]
      exact ⟨hpool, fun hmem => hstalePool (Finset.mem_of_mem_erase hmem), hsome⟩

theorem releaseShm {shm : ℕ} (hc : Matched c source) (hacts : Acts c (.releaseShm shm) c')
    (h : c.requestStep (.releaseShm shm) = some c') :
    Matched c' fun pool => (source pool).filter (· != shm) := by
  obtain ⟨hallowed, h⟩ := GlobalContext.guarded_eq_some h
  have hi := requestAllowed_interface hallowed
  obtain ⟨-, hg⟩ := hc.formats shm (hc.objects shm hi)
  have heq := Option.some.inj h
  have hframe := frame_queueLocalDeleteId (c.shmOnRelease shm).2 shm
  have hgone : ((c.shmOnRelease shm).2.queueLocalDeleteId shm).shadowTable.interfaces.get shm =
      none := by
    have hlocal : (c.shmOnRelease shm).2.shadowTable = c.shadowTable := rfl
    unfold GlobalContext.queueLocalDeleteId
    rw [hlocal, if_pos (by simp [ShadowTable.getInterface, ShadowTable.getHostId, hi, hg])]
    simp [sendGuest, ShadowTable.removeId]
  rw [heq] at hframe hgone
  obtain ⟨told, hevents, hsilent⟩ := hframe.unsent
  have hevents : c'.guestEvents = told ++ c.guestEvents := hevents
  have htold : ∀ g f, .shmFormat g f ∉ told := fun g f hmem =>
    absurd (hsilent _ hmem) Bool.true_eq_false.mp
  have hformats : ∀ g, c'.shmGuestFormats.get g =
      if g = shm then none else c.shmGuestFormats.get g := by
    intro g
    have hformats : c'.shmGuestFormats = c.shmGuestFormats.erase shm :=
      congrArg ShmPart.guestFormats hframe.shm
    rw [hformats, Table.get_erase]
  have hstale : ∀ g, g ≠ shm → g ∉ c'.staleShmGuestObjects → g ∉ c.staleShmGuestObjects := by
    intro g hne hnot hmem
    have hstale : c'.staleShmGuestObjects = c.staleShmGuestObjects.erase shm :=
      congrArg ShmPart.staleObjects hframe.shm
    exact hnot (hstale ▸ Finset.mem_erase.mpr ⟨hne, hmem⟩)
  have hpools : c'.pools = c.pools := congrArg ShmPart.pools hframe.shm
  have hstalePools : c'.staleShmPools = c.staleShmPools := congrArg ShmPart.stalePools hframe.shm
  have hother : ∀ g, g ≠ shm → (GlobalMessage.releaseShm shm).destroyed ≠ some (g, .wlShm) :=
    fun g hne heq => hne (Prod.mk.inj (Option.some.inj heq)).1.symm
  have hpool : ∀ p, (GlobalMessage.releaseShm shm).destroyed ≠ some (p, .wlShmPool) := fun p heq =>
    absurd (Prod.mk.inj (Option.some.inj heq)).2 (by decide)
  constructor
  case formats =>
    intro g hsome
    rw [hformats] at hsome
    split_ifs at hsome with hne
    · exact absurd hsome Bool.false_ne_true
    · exact (stays hacts (hc.formats g hsome) (hother g hne)).1
  case objects =>
    intro g hi
    rw [hformats]
    split_ifs with hne
    · exact absurd (hgone.symm.trans (hne ▸ hi)) (Option.some_ne_none _).symm
    · rcases hacts.effect.origin hi with hi | ⟨hcreated, -⟩
      · exact hc.objects g hi
      · exact absurd hcreated (Option.some_ne_none _).symm
  case pools =>
    intro p hp
    exact (stays hacts (hc.pools p (hpools ▸ hp)) (hpool p)).1
  case stalePools =>
    intro p hp
    exact hpools ▸ hc.stalePools p (hstalePools ▸ hp)
  case advertised =>
    intro g advertised hsome hnot f
    have hhost : c'.hostShmFormats = c.hostShmFormats := congrArg ShmPart.hostFormats hframe.shm
    have hid : c'.hostDmabufId = c.hostDmabufId := congrArg ShmPart.dmabufId hframe.shm
    rw [guestShmFormatAvailable, hhost, hid, hacts.options]
    rw [hformats] at hsome
    split_ifs at hsome with hne
    exact hc.advertised g advertised hsome (hstale g hne hnot) f
  case sent =>
    intro g f advertised hsome
    rw [hformats] at hsome
    split_ifs at hsome with hne
    obtain ⟨-, hfreed⟩ := stays hacts (hc.formats g (Option.isSome_of_eq_some hsome)) (hother g hne)
    rw [hevents, count_sinceFreed (hfreed told hevents), List.count_eq_zero.mpr (htold g f),
      Nat.zero_add]
    exact hc.sent g f advertised hsome
  case fresh => exact hc.fresh.step hacts hevents fun g f hmem => absurd hmem (htold g f)
  case source =>
    intro p shm' hp hnot
    obtain ⟨hp, hne⟩ := Option.filter_eq_some_iff.mp hp
    have hne : shm' ≠ shm := bne_iff_ne.mp hne
    rw [hpools, hstalePools, hformats, if_neg hne]
    exact hc.source p shm' hp (hstale shm' hne hnot)

/-! ## Steps -/

theorem requestStep {s : PoolSession} (hs : Matched s.session.context s.source)
    (hacts : Acts s.session.context m c') (h : s.session.context.requestStep m = some c') :
    Matched c' (s.trace m) := by
  cases m with
  | bind r n i v g =>
    by_cases hi : i = .wlShm
    · subst hi
      exact hs.bind hacts h
    · refine hs.keeps hacts (keeps_requestStep h ?_ (fun _ _ _ => nofun) (fun _ => nofun)
        fun _ => nofun) ?_ (fun _ => nofun) fun _ => nofun
      · intro r' n' v' g' heq
        exact hi (GlobalMessage.bind.inj heq).2.2.1
      · intro g' heq
        exact hi (Prod.mk.inj (Option.some.inj heq)).2
  | createPool shm pool mapped => exact hs.createPool hacts h
  | destroyPool pool => exact hs.destroyPool hacts h
  | releaseShm shm => exact hs.releaseShm hacts h
  | newObject sender g i =>
    have hordinary : i ≠ .wlShm := by
      rintro rfl
      obtain ⟨hallowed, -⟩ := GlobalContext.guarded_eq_some h
      exact Bool.false_ne_true
        (Bool.and_eq_true_iff.mp (Bool.and_eq_true_iff.mp hallowed).1).1
    refine hs.keeps hacts (keeps_requestStep h (fun _ _ _ _ => nofun) (fun _ _ _ => nofun)
      (fun _ => nofun) fun _ => nofun) (fun g' heq => ?_) (fun _ => nofun) fun _ => nofun
    exact hordinary (Prod.mk.inj (Option.some.inj heq)).2
  | _ =>
    refine hs.keeps hacts (keeps_requestStep h (fun _ _ _ _ => nofun) (fun _ _ _ => nofun)
      (fun _ => nofun) fun _ => nofun) ?_ ?_ ?_ <;>
    · intro g heq
      simp [GlobalMessage.created, GlobalMessage.destroyed] at heq

/-- A format that the host sends to an object of its own. -/
theorem forwarded {g h format : ℕ} (hc : Matched c source)
    (hg : c.shadowTable.guestToHost.get g = some h) :
    Matched (c.sendGuest (.shmFormat g format)) source := by
  have hne : ∀ g', (c.shmGuestFormats.get g').isSome = true → g' ≠ g := by
    rintro g' hsome rfl
    exact Option.some_ne_none h (hg.symm.trans (hc.formats g' hsome).2)
  refine { hc with sent := fun g' f advertised hsome => ?_, fresh := fun g' f hi hnone hmem => ?_ }
  · have hne := hne g' (Option.isSome_of_eq_some hsome)
    have hcount := @count_sinceFreed g' f [.shmFormat g format] c.guestEvents (by simp)
    have htold : .shmFormat g' f ∉ [GuestEvent.shmFormat g format] := by simp [hne]
    rw [List.count_eq_zero.mpr htold, Nat.zero_add] at hcount
    exact hcount.trans (hc.sent g' f advertised hsome)
  · rcases @mem_sinceFreed_append g' _ [.shmFormat g format] _ hmem with hmem | ⟨-, hmem⟩
    · obtain ⟨rfl, -⟩ := GuestEvent.shmFormat.inj (List.mem_singleton.mp hmem)
      exact Option.some_ne_none h (hg.symm.trans hnone)
    · exact hc.fresh g' f hi hnone hmem

theorem shmFormat {shm format : ℕ} (hc : Matched c source) (hpaired : c.view.ids.Paired)
    (hacts : Acts c (.shmFormat shm format) c')
    (h : c.eventStep (.shmFormat shm format) = some c') : Matched c' source := by
  rcases GlobalContext.deliver_eq_some h with ⟨rfl, -⟩ | ⟨-, -, h⟩
  · exact hc
  obtain rfl := Option.some.inj h
  revert hacts
  unfold shmOnFormat
  split_ifs
  · intro hacts
    exact hc.reported hacts rfl rfl (reports_recordHostShmWlFormat c format) (.refl _)
  · intro hacts
    unfold forwardEvent
    dsimp only
    cases hg : c.shadowTable.getGuestId shm with
    | none => exact hc
    | some g => exact hc.forwarded ((hpaired g shm).mpr hg)

theorem dmabufReport {tables : Bool} {factory format modifier : ℕ} {e : ℕ → GuestEvent}
    (hc : Matched c source) (hnew : m.created = none) (hdestroyed : m.destroyed = none)
    (he : ∀ g, (e g).isTable = false ∧ (e g).isShmFormat = false)
    (heq : c' = forwardEvent (c.onReport tables factory format modifier) factory e)
    (hacts : Acts c m c') : Matched c' source := by
  have hkeeps : ∀ c', Keeps c c' → Acts c m c' → Matched c' source := fun c' hkeeps hacts =>
    hc.keeps hacts hkeeps (fun g h => Option.some_ne_none _ (h.symm.trans hnew))
      (fun g h => Option.some_ne_none _ (h.symm.trans hdestroyed))
      fun g h => Option.some_ne_none _ (h.symm.trans hdestroyed)
  unfold onReport at heq
  split_ifs at heq
  · exact heq ▸ hc
  · refine hc.reported hacts hnew hdestroyed (reports_recordHostShmDrmFormat c format) ?_
    have hpair := keeps_recordPair (c.recordHostShmDrmFormat format) (format, modifier)
    rw [heq]
    unfold forwardEvent
    dsimp only
    split_ifs
    · exact hpair.trans (keeps_refreshSyntheticFeedbacks _ tables)
    · exact hpair
  · exact heq ▸ hc
  · have hframe := @frame_forwardEvent (.forward, c) factory e (fun g => (he g).1) fun g => (he g).2
    exact hkeeps c' (heq ▸ hframe.keeps) hacts

theorem global {r n v : ℕ} {i : Interface} (hc : Matched c source)
    (hdrifts : ¬ Drifts c (.global r n i v)) (hacts : Acts c (.global r n i v) c')
    (h : c.eventStep (.global r n i v) = some c') : Matched c' source := by
  have hkeeps : Keeps c c' → Matched c' source := fun hkeeps =>
    hc.keeps hacts hkeeps (fun _ => nofun) (fun _ => nofun) fun _ => nofun
  rcases GlobalContext.deliver_eq_some h with ⟨rfl, -⟩ | ⟨-, -, h⟩
  · exact hc
  obtain ⟨result, hresult, rfl⟩ := Option.map_eq_some_iff.mp h
  have hframe := @frame_forwardEvent result r (fun g => .global g n i v) (fun _ => rfl) fun _ => rfl
  rcases changes_onGlobal hresult with ⟨-, heq⟩ | ⟨hv, hlists, p, hp, hbinds⟩
  · exact hkeeps (heq ▸ hframe.keeps)
  have hp := hp.frame hframe
  refine hc.resets hacts hdrifts (fun _ => nofun) rfl ?_ ?_ hbinds ?_ ?_ hp.shm hp.unsent
  · rintro n' ⟨rfl, -, -, hrestarts⟩
    exact ⟨hrestarts, rfl⟩
  · exact fun hrestarts => ⟨rfl, hv, hlists, hrestarts⟩
  · rintro rfl hbind hid
    refine ⟨r, n, v, rfl, hv, hlists, hbind, ?_⟩
    by_cases hrestarts : c.ledger.Restarts r n
    · rw [if_pos hrestarts, ShmPart.reset_eq] at hid
      by_cases hname : c.hostDmabufGlobalName = some n
      · exact .inr ⟨hrestarts, hname⟩
      · have hname' : c.shmPart.dmabufName ≠ some n := hname
        rw [if_neg hname'] at hid
        refine .inl (Eq.trans ?_ hid)
        split_ifs <;> rfl
    · rw [if_neg hrestarts] at hid
      exact .inl hid
  · rintro ⟨r', n', v', heq, -, -, hbind, -⟩
    exact ⟨(GlobalMessage.global.inj heq).2.2.1, hbind⟩

theorem globalRemove {r n : ℕ} (hc : Matched c source) (hdrifts : ¬ Drifts c (.globalRemove r n))
    (hacts : Acts c (.globalRemove r n) c') (h : c.eventStep (.globalRemove r n) = some c') :
    Matched c' source := by
  classical
  rcases GlobalContext.deliver_eq_some h with ⟨rfl, -⟩ | ⟨-, -, h⟩
  · exact hc
  have heq := Option.some.inj h
  have hframe := @frame_forwardEvent (c.onGlobalRemove r n) r (fun g => .globalRemove g n)
    (fun _ => rfl) fun _ => rfl
  rw [heq] at hframe
  obtain ⟨p, hp, hreset⟩ := changes_onGlobalRemove c r n
  have hp := hp.frame hframe
  have hp' : p = if n ∈ c.namesOf r ∧ c.ledger.IsLast r n then c.shmPart.reset n
      else c.shmPart := by
    rcases hreset with ⟨hn, hlast, heq⟩ | ⟨hnot, heq⟩
    · rw [heq, if_pos ⟨hn, hlast⟩]
    · rw [heq, if_neg hnot]
  refine @resets c c' source _ n .wlRegistry (n ∈ c.namesOf r ∧ c.ledger.IsLast r n) _ p hc hacts
    hdrifts (fun _ => nofun) rfl ?_ (fun h => ⟨rfl, h⟩) (hp' ▸ .none ?_) nofun ?_ hp.shm hp.unsent
  · rintro n' ⟨rfl, hlast⟩
    exact ⟨hlast, rfl⟩
  · rintro ⟨_, _, _, heq, -⟩
    cases heq
  · exact fun h => absurd h.1 (by decide)

theorem eventStep (hc : Matched c source) (hpaired : c.view.ids.Paired) (hdrifts : ¬ Drifts c m)
    (hacts : Acts c m c') (h : c.eventStep m = some c') : Matched c' source := by
  have hsettled : ∀ {factory : ℕ} {result : GlobalContext},
      c.deliver factory .zwpLinuxDmabufV1 result.settle = some c' → c' = c ∨ c' = result := by
    intro factory result h
    rcases GlobalContext.deliver_eq_some h with ⟨rfl, -⟩ | ⟨-, -, h⟩
    · exact .inl rfl
    · exact .inr (GlobalContext.settle_eq_some h).2
  cases m with
  | global r n i v => exact hc.global hdrifts hacts h
  | globalRemove r n => exact hc.globalRemove hdrifts hacts h
  | shmFormat shm format => exact hc.shmFormat hpaired hacts h
  | dmabufFormat factory format tables =>
    rcases hsettled h with rfl | heq
    · exact hc
    · exact hc.dmabufReport rfl rfl (fun _ => ⟨rfl, rfl⟩) heq hacts
  | dmabufModifier factory format modifierHi modifierLo tables =>
    rcases hsettled h with rfl | heq
    · exact hc
    · exact hc.dmabufReport rfl rfl (fun _ => ⟨rfl, rfl⟩) heq hacts
  | callbackDone callback tables =>
    rcases GlobalContext.deliver_eq_some h with ⟨rfl, -⟩ | ⟨-, -, h⟩
    · exact hc
    · obtain ⟨-, rfl⟩ := GlobalContext.settle_eq_some h
      exact hc.keeps hacts (keeps_callbackOnDone c tables callback) (fun _ => nofun)
        (fun _ => nofun) fun _ => nofun
  | deleteId =>
    have hkeeps : Keeps c c' := Option.some.inj h ▸ (frame_onDeleteId c _).keeps
    exact hc.keeps hacts hkeeps (fun _ => nofun) (fun _ => nofun) fun _ => nofun
  | endBatch =>
    have hkeeps : Keeps c c' := Option.some.inj h ▸ ⟨rfl, .of_eq rfl⟩
    exact hc.keeps hacts hkeeps (fun _ => nofun) (fun _ => nofun) fun _ => nofun
  | _ => exact absurd h.symm (Option.some_ne_none c')

/-- What one step preserves. -/
theorem step {options : GlobalOptions} {s s' : PoolSession}
    (hrouted : s.session.Routed options) (hs : Matched s.session.context s.source)
    (hdrifts : ¬ Drifts s.session.context m) (h : s.step m = some s') :
    s'.session.Routed options ∧ Matched s'.session.context s'.source := by
  obtain ⟨session, hsession, rfl⟩ := Option.map_eq_some_iff.mp h
  refine ⟨hrouted.step hsession, ?_⟩
  obtain ⟨hacts, -⟩ := hrouted.acts hsession
  unfold GlobalSession.step at hsession
  split_ifs at hsession
  obtain ⟨next, hnext, rfl⟩ := Option.map_eq_some_iff.mp hsession
  rcases Option.or_eq_some_iff.mp hnext with hnext | ⟨hnone, hnext⟩
  · exact hs.requestStep hacts hnext
  · have hsource : s.trace m = s.source := by
      cases m with
      | createPool | destroyPool | releaseShm => exact absurd hnext.symm (Option.some_ne_none _)
      | _ => rfl
    rw [hsource]
    exact hs.eventStep hrouted.paired hdrifts hacts hnext

/-- What the invariant says about advertised and accepted formats. -/
theorem formatsAgree {s : PoolSession} (hs : Matched s.session.context s.source) :
    FormatsAgree s := by
  constructor
  case once =>
    intro shm format hi
    obtain ⟨advertised, hadvertised⟩ := Option.isSome_iff_exists.mp (hs.objects shm hi)
    rw [hs.sent shm format advertised hadvertised]
    split_ifs <;> omega
  case accepted =>
    rintro pool shm format hsource ⟨-, hlive⟩
    obtain ⟨hpool, hstale, hsome⟩ := hs.source pool shm hsource hlive
    obtain ⟨advertised, hadvertised⟩ := Option.isSome_iff_exists.mp hsome
    have hcount := hs.sent shm format advertised hadvertised
    have hmem : .shmFormat shm format ∈ sinceFreed shm s.session.context.guestEvents ↔
        format ∈ advertised := by
      rw [← List.count_pos_iff, hcount]
      split_ifs with h <;> simp [h]
    rw [hmem, hs.advertised shm advertised hadvertised hlive format, createBufferFormatCheck,
      if_neg hstale, hpool]
    cases supportedShmFormat format <;>
      cases s.session.context.guestShmFormatAvailable format <;> simp

end Matched

/-- As long as the formats do not change under a `wl_shm` of the guest, each format is
advertised once, and what was advertised is what is accepted. -/
theorem shm_formats_agree {options : GlobalOptions} {s : PoolSession}
    (hs : (poolSystem options).ReachableWhile (fun s m => ¬ Drifts s.session.context m) s) :
    FormatsAgree s := by
  have hinvariant : s.session.Routed options ∧ Matched s.session.context s.source := by
    refine hs.invariant (I := fun s => s.session.Routed options ∧
      Matched s.session.context s.source) ?_ ?_
    · rintro s rfl
      exact ⟨GlobalSession.routed_new options, .new options⟩
    · intro s m t _ ⟨hrouted, hmatched⟩ hdrifts h
      exact hmatched.step hrouted hdrifts h
  exact hinvariant.2.formatsAgree

/-- The host replaces its `wl_shm`, and the guest binds the new one. -/
def replacedShmRun : List GlobalMessage :=
  [.getRegistry 2, .global 2 5 .wlShm 1, .global 2 6 .zwpLinuxDmabufV1 3, .bind 2 5 .wlShm 1 3,
    .dmabufFormat 4 wlShmFormatNv12 true, .shmFormat 3 wlShmFormatRgb565, .createPool 3 4 true,
    .globalRemove 2 5, .global 2 5 .wlShm 1, .bind 2 5 .wlShm 1 5, .createPool 5 6 true,
    .shmFormat 6 wlShmFormatRgb565]

/-- The guest has no `wl_shm`, or the message does not concern dma-bufs. -/
def sparesFormats (s : PoolSession) (m : GlobalMessage) : Bool :=
  !(s.session.context.shadowTable.interfaces.any fun _ i => i == .wlShm) ||
    match m with
    | .global _ n i _ =>
      i != .zwpLinuxDmabufV1 && s.session.context.hostDmabufGlobalName != some n
    | .globalRemove _ n => s.session.context.hostDmabufGlobalName != some n
    | _ => true

theorem sparesFormats_sound {s : PoolSession} {m : GlobalMessage}
    (h : sparesFormats s m = true) : ¬ Drifts s.session.context m := by
  rintro ⟨⟨shm, hshm, -⟩, -, hchanges⟩
  have hany : s.session.context.shadowTable.interfaces.any (fun _ i => i == .wlShm) = true :=
    (Table.any_eq_true _ _).mpr ⟨shm, _, hshm, rfl⟩
  unfold sparesFormats at h
  rw [hany] at h
  rcases hchanges with ⟨n, format, hresets, hname, -⟩ | ⟨⟨r, n, v, rfl, -⟩, -⟩
  · cases m with
    | global r n' i v =>
      obtain ⟨rfl, -⟩ := hresets
      simp [hname] at h
    | globalRemove r n' =>
      obtain ⟨rfl, -⟩ := hresets
      simp [hname] at h
    | _ => exact hresets
  · simp at h

theorem shm_formats_agree_replaced : ∃ s,
    (poolSystem gpuOptions).run (.new gpuOptions) replacedShmRun = some s ∧ FormatsAgree s := by
  have hrun : (((poolSystem gpuOptions).restrict sparesFormats).run (.new gpuOptions)
      replacedShmRun).isSome = true := by decide +kernel
  obtain ⟨s, hs⟩ := Option.isSome_iff_exists.mp hrun
  have hreach : (poolSystem gpuOptions).ReachableWhile
      (fun s m => ¬ Drifts s.session.context m) s :=
    TransitionSystem.Reachable.of_restrict (fun _ _ => sparesFormats_sound) (.run (.init rfl) hs)
  exact ⟨s, TransitionSystem.run_of_restrict hs, shm_formats_agree hreach⟩

/-- The host's `wl_shm` reports NV12, and then the proxy gets its dma-buf object. -/
def lateDmabufRun : List GlobalMessage :=
  [.getRegistry 2, .global 2 5 .wlShm 1, .bind 2 5 .wlShm 1 3, .shmFormat 3 wlShmFormatNv12,
    .createPool 3 4 true, .global 2 6 .zwpLinuxDmabufV1 3]

/-- NV12 is accepted from then on, but was not advertised. -/
theorem late_dmabuf_not_advertised : ¬ ∀ s, (poolSystem gpuOptions).Reachable s →
    FormatsAgree s := by
  have hrun : ((poolSystem gpuOptions).run (.new gpuOptions) lateDmabufRun).map (fun s =>
      (s.source 4, s.session.context.shadowTable.getInterface 3,
        decide (3 ∈ s.session.context.staleShmGuestObjects),
        s.session.context.createBufferFormatCheck 4 wlShmFormatNv12,
        decide (.shmFormat 3 wlShmFormatNv12 ∈ sinceFreed 3 s.session.context.guestEvents))) =
      some (some 3, some .wlShm, false, .passed, false) := by
    decide +kernel
  obtain ⟨s, hs, heq⟩ := Option.map_eq_some_iff.mp hrun
  simp only [Prod.mk.injEq, decide_eq_false_iff_not] at heq
  obtain ⟨hsource, hinterface, hlive, hpassed, hmissing⟩ := heq
  intro hall
  have hagree := hall s (.run (.init rfl) hs)
  exact hmissing ((hagree.accepted 4 3 _ hsource ⟨hinterface, hlive⟩).mp hpassed)

end Sommelier
