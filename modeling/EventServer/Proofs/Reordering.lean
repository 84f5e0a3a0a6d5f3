/-
The order of the reports in a batch does not matter.

Two reports that follow each other may change places, up to the order in which descriptors and slots are queued: two on
connections (`twin_resume_resume`), and one on a connection with one on the listener (`twin_resume_acceptUpTo`), where
the connections that are accepted meanwhile get the same slots. Whatever is dealt with after them does the same to
twins, so any two orders of a batch lead to twins (`reordered_dispatch`). `order_irrelevant` says what they have in
common.

Nobody else acts while a batch is dealt with. What a descriptor is watched for may be refused to change; two reports on
one connection meet the same refusals in either order, and reports on two connections meet each their own.
-/
import EventServer.Proofs.Interchange

namespace EventServer

/-- the handle of a task that is enrolled -/
def Happening.pushed? : Happening → Option Handle
  | pushed h => some h
  | _ => none

/-- a handle that is woken -/
def Happening.woken? : Happening → Option Handle
  | woken h => some h
  | _ => none

namespace Host

variable {H : Type} {h : Host} {key key' i j : Nat} {conn conn' : Connection H} {r r' : Readiness} {d e l : Descriptor}

theorem heed_of_disarms (hd : conn.disarms r = true) : h.heed key conn r =
    (h.rewatch conn.descriptor (UInt64.ofNat (Token.base + key)) Connections.idleInterest).1 := by
  simp [heed, hd]

theorem heed_of_not_disarms (hd : conn.disarms r = false) : h.heed key conn r = h := by
  simp [heed, hd]

theorem device?_heed (h : Host) (key : Nat) (conn : Connection H) (r : Readiness) (d : Descriptor) :
    (h.heed key conn r).device? d = h.device? d := by
  cases hd : conn.disarms r with
  | false => rw [heed_of_not_disarms hd]
  | true =>
    rw [heed_of_disarms hd]
    exact device?_rewatch ..

theorem length_heed (h : Host) (key : Nat) (conn : Connection H) (r : Readiness) :
    (h.heed key conn r).devices.length = h.devices.length := by
  cases hd : conn.disarms r with
  | false => rw [heed_of_not_disarms hd]
  | true =>
    rw [heed_of_disarms hd]
    exact congrArg List.length (devices_rewatch ..)

/-- a report does not change who calls -/
theorem callers_heed (h : Host) (key : Nat) (conn : Connection H) (r : Readiness) (l : Descriptor) :
    (h.heed key conn r).callers l = h.callers l := by
  have hothers : (h.heed key conn r).others = h.others := by
    cases hd : conn.disarms r with
    | false => rw [heed_of_not_disarms hd]
    | true =>
      rw [heed_of_disarms hd]
      exact (h.met_rewatch ..).1
  simp only [callers, ahead, device?_heed, hothers]

/-- what another descriptor will meet is left as it is by a report -/
theorem grants_heed {d : Descriptor} (hne : d ≠ conn.descriptor) (h : Host) (key : Nat) (r : Readiness) :
    (h.heed key conn r).grants d = h.grants d := by
  cases hdisarms : conn.disarms r with
  | false => rw [heed_of_not_disarms hdisarms]
  | true => rw [heed_of_disarms hdisarms, grants, change?_rewatch hne, grants]

theorem heed_accept (hs : h.Sound) (hd : h.device? conn.descriptor = some (.stream i .far))
    (hw : (h.watch? conn.descriptor).isSome) (l : Descriptor) (key : Nat) (r : Readiness) :
    Twin ((h.accept l).1.heed key conn r) ((h.heed key conn r).accept l).1 ∧
      ((h.heed key conn r).accept l).2 = (h.accept l).2 := by
  cases hdisarms : conn.disarms r with
  | false =>
    rw [heed_of_not_disarms hdisarms, heed_of_not_disarms hdisarms]
    exact ⟨.refl _, rfl⟩
  | true =>
    rw [heed_of_disarms hdisarms, heed_of_disarms hdisarms]
    exact rewatch_accept hs hd hw l _ _

theorem heed_confirm (hs : h.Sound) (hd : h.device? conn.descriptor = some (.stream i .far))
    (hw : (h.watch? conn.descriptor).isSome) (he : h.device? e = some (.stream j .far)) (hne : e ≠ conn.descriptor)
    (key : Nat) (r : Readiness) :
    Twin ((h.confirm e).1.heed key conn r) ((h.heed key conn r).confirm e).1 ∧
      ((h.heed key conn r).confirm e).2 = (h.confirm e).2 := by
  cases hdisarms : conn.disarms r with
  | false =>
    rw [heed_of_not_disarms hdisarms, heed_of_not_disarms hdisarms]
    exact ⟨.refl _, rfl⟩
  | true =>
    rw [heed_of_disarms hdisarms, heed_of_disarms hdisarms]
    exact rewatch_confirm hs hd hw he hne _ _

/-- a report, and taking a connection with what comes of that -/
theorem heed_acquire (hs : h.Sound) (hd : h.device? conn.descriptor = some (.stream i .far))
    (hw : (h.watch? conn.descriptor).isSome) (l : Descriptor) (key : Nat) (r : Readiness) :
    Twin ((h.acquire l).1.heed key conn r) ((h.heed key conn r).acquire l).1 ∧
      ((h.heed key conn r).acquire l).2 = (h.acquire l).2 := by
  obtain ⟨haccept, hvalue⟩ := heed_accept hs hd hw l key r
  have hlength : (h.heed key conn r).devices.length = h.devices.length := length_heed ..
  rcases h.acquire_cases l with ⟨code, hr, he⟩ | ⟨peer, j, hr, hwaits, hnew, he, hv⟩
  · rcases (h.heed key conn r).acquire_cases l with ⟨code', hr', he'⟩ | ⟨peer', i', hr', -⟩
    · cases hr'.symm.trans (hvalue.trans hr)
      rw [he, he']
      exact ⟨haccept, rfl⟩
    · cases hr'.symm.trans (hvalue.trans hr)
  · rcases (h.heed key conn r).acquire_cases l with ⟨code', hr', -⟩ | ⟨peer', i', hr', -, -, he', hv'⟩
    · cases hr'.symm.trans (hvalue.trans hr)
    rw [hlength] at hr' he' hv'
    cases hr'.symm.trans (hvalue.trans hr)
    -- the connection that the report is about is where it was, and it is another
    have hundisturbed := (undisturbed_accept hs l).1
    have hcalm := hundisturbed.calm (by simp) hd
    have hne : h.devices.length ≠ conn.descriptor := (Nat.ne_of_lt (lt_length_of_device? hd)).symm
    obtain ⟨hconfirm, hsame⟩ := heed_confirm hundisturbed.sound (hcalm.device.trans hd) (by rw [hcalm.watch]; exact hw)
      hnew hne key r
    obtain ⟨gone, -, hblind⟩ := blind_confirm (h := (h.accept l).1.heed key conn r) ((device?_heed ..).trans hnew)
    obtain ⟨hboth, hboth'⟩ := hblind.twin haccept
    rw [he, he', hv, hv', hboth', hsame]
    exact ⟨hconfirm.trans hboth, rfl⟩

theorem heed_enlist (hs : h.Sound) (hd : h.device? conn.descriptor = some (.stream i .far))
    (hw : (h.watch? conn.descriptor).isSome) (he : h.device? e = some (.stream j .far)) (hne : e ≠ conn.descriptor)
    (slot key : Nat) (r : Readiness) :
    Twin ((h.enlist slot e).1.heed key conn r) ((h.heed key conn r).enlist slot e).1 ∧
      ((h.heed key conn r).enlist slot e).2 = (h.enlist slot e).2 := by
  cases hdisarms : conn.disarms r with
  | false =>
    rw [heed_of_not_disarms hdisarms, heed_of_not_disarms hdisarms]
    exact ⟨.refl _, rfl⟩
  | true =>
    rw [heed_of_disarms hdisarms, heed_of_disarms hdisarms]
    exact rewatch_enlist hs hd hw he hne _ _

/-- reports on two connections -/
theorem heed_heed (hs : h.Sound) (hd : h.device? conn.descriptor = some (.stream i .far))
    (hw : (h.watch? conn.descriptor).isSome) (hd' : h.device? conn'.descriptor = some (.stream j .far))
    (hw' : (h.watch? conn'.descriptor).isSome) (hne : conn'.descriptor ≠ conn.descriptor) :
    Twin ((h.heed key' conn' r').heed key conn r) ((h.heed key conn r).heed key' conn' r') := by
  cases hdisarms : conn.disarms r with
  | false =>
    rw [heed_of_not_disarms hdisarms, heed_of_not_disarms hdisarms]
    exact .refl _
  | true =>
    cases hdisarms' : conn'.disarms r' with
    | false =>
      rw [heed_of_not_disarms hdisarms', heed_of_not_disarms hdisarms']
      exact .refl _
    | true =>
      rw [heed_of_disarms hdisarms', heed_of_disarms hdisarms', heed_of_disarms hdisarms, heed_of_disarms hdisarms]
      exact rewatch_rewatch hs hd hw hd' hw' hne _ _ _ _

/-- two reports on one connection: room to write ceases to be watched with the first of them that is about it, or with
the second if that is refused -/
theorem heed_heed_same (h : Host) (key : Nat) (conn : Connection H) (r r' : Readiness) :
    let after := fun q : Readiness => (h.heed key conn q).grants conn.descriptor
    let heard := fun q : Readiness => conn.heard q (h.grants conn.descriptor)
    (h.heed key conn r).heed key (heard r) r' = (h.heed key conn r').heed key (heard r') r ∧
      (heard r).heard r' (after r) = (heard r').heard r (after r') := by
  have hdisarms : ∀ (granted : Bool) (q q' : Readiness), (conn.heard q granted).disarms q' =
      (q'.heeds .write && (conn.armed && !(q.heeds .write && granted))) := fun _ _ _ => rfl
  have hfirst : ∀ q : Readiness, conn.disarms q = (q.heeds .write && conn.armed) := fun _ => rfl
  have hsame : ∀ (granted : Bool) (q : Readiness), (conn.heard q granted).descriptor = conn.descriptor := fun _ _ => rfl
  dsimp only
  refine ⟨?_, ?_⟩
  · simp only [heed, hdisarms, hfirst, hsame]
    cases r.heeds .write <;> cases r'.heeds .write <;> cases conn.armed <;> cases h.grants conn.descriptor <;> simp
  · simp only [Connection.heard, Connection.resumed, Connection.mk.injEq, true_and, heed, hfirst]
    refine ⟨?_, ?_, ?_⟩
    · cases r.readable || r.closed <;> cases r'.readable || r'.closed <;> rfl
    · cases r.writable || r.closed <;> cases r'.writable || r'.closed <;> rfl
    · cases r.heeds .write <;> cases r'.heeds .write <;> cases conn.armed <;> simp

end Host

namespace Server

variable {X : Type} {s s' : Server X} {fixed : List Watch} {key key' : Nat} {conn conn' : Connection Handle}
  {r r' : Readiness}

theorem twin_rebuilt {slots slots' : Slots (Connection Handle)} {h h' : Host} {t t' : Tasks Nat (ConnectionTask X)}
    (hslots : slots = slots') (hh : Host.Twin h h') (ht : t.Twin t') :
    (s.rebuilt slots h t).Twin (s.rebuilt slots' h' t') :=
  ⟨h', t', by rw [hslots]; rfl, hh, ht⟩

/-- what is parked on a connection is of tenants, each in the slot that its handle says -/
theorem Mustered.names (hm : s.Mustered fixed) (handles : List Handle)
    (hparked : ∀ h ∈ handles, ∃ key conn, s.connections.get? key = some conn ∧ h ∈ conn.handles) :
    (∀ h ∈ handles, h.serial ≠ s.engine.tasks.nextSerial) ∧
      ∀ h ∈ handles, ∀ h' ∈ handles, h.serial = h'.serial → h.slot = h'.slot := by
  obtain ⟨past, hl⟩ := hm.law
  have htenant : ∀ h ∈ handles, ∃ tenant, s.engine.tasks.slots.get? h.slot = some tenant ∧
      tenant.serial = h.serial := fun h hmem => by
    obtain ⟨key, conn, hg, hmem⟩ := hparked h hmem
    obtain ⟨tenant, ht, hserial, -⟩ := hm.owned key conn hg h hmem
    exact ⟨tenant, ht, hserial⟩
  refine ⟨fun h hmem he => ?_, fun h hmem h' hmem' he => ?_⟩
  · obtain ⟨tenant, ht, hserial⟩ := htenant h hmem
    have hfresh := hl.fresh ht
    omega
  · obtain ⟨tenant, ht, hserial⟩ := htenant h hmem
    obtain ⟨tenant', ht', hserial'⟩ := htenant h' hmem'
    exact hl.distinct ht ht' (hserial.trans (he.trans hserial'.symm))

/-! ## Two reports on connections -/

/-- a connection that another report is about, or the same with what is left parked on it -/
theorem get?_resume (hothers : s.host.others = []) (hs : s.Stands key conn) (r : Readiness) (other : Nat) :
    (s.resume key r).server.connections.get? other =
      if other = key then some (conn.heard r (s.host.grants conn.descriptor)) else s.connections.get? other := by
  rw [(resume_eq hothers hs r).1]
  exact Slots.get?_set hs.live ..

/-- two reports on connections, one after the other -/
theorem resume_resume_eq (hm : s.Mustered fixed) (hothers : s.host.others = []) (hs : s.Stands key conn)
    (r r' : Readiness) (hg' : (s.resume key r).server.connections.get? key' = some conn') :
    ((s.resume key r).server.resume key' r').server =
        s.rebuilt
          ((s.connections.slots.set key (conn.heard r (s.host.grants conn.descriptor))).set key'
            (conn'.heard r' ((s.host.heed key conn r).grants conn'.descriptor)))
          ((s.host.heed key conn r).heed key' conn' r')
          ((conn.roused r ++ conn'.roused r').foldl Tasks.wake s.engine.tasks) ∧
      (s.resume key r).course ++ ((s.resume key r).server.resume key' r').course =
        (conn.roused r ++ conn'.roused r').map .woken := by
  obtain ⟨hs₁, hc₁⟩ := resume_eq hothers hs r
  obtain ⟨hs₂, hc₂⟩ := resume_eq ((others_resume hm hothers key r).trans hothers) ((hm.resume key r).stands hg') r'
  refine ⟨?_, by rw [hc₁, hc₂, List.map_append]⟩
  rw [hs₂, hs₁, List.foldl_append]
  rfl

/-- two reports on connections come to twins in either order, and the same tasks are resumed -/
structure Trades (s : Server X) (key key' : Nat) (r r' : Readiness) : Prop where
  server : ((s.resume key r).server.resume key' r').server.Twin ((s.resume key' r').server.resume key r).server
  course : ((s.resume key r).course ++ ((s.resume key r).server.resume key' r').course).Perm
    ((s.resume key' r').course ++ ((s.resume key' r').server.resume key r).course)

/-- nothing comes of a report on a slot that is vacant, whatever another one is about -/
theorem trades_vacant (hg : s.connections.get? key = none) (key' : Nat) (r r' : Readiness) :
    s.Trades key key' r r' := by
  have hstill : (s.resume key' r').server.connections.get? key = none := by
    have hsame := (s.connections.amends_fire key' r').isSome (k := key)
    rw [hg, Option.isSome_none, Option.isSome_eq_false_iff, Option.isNone_iff_eq_none] at hsame
    exact hsame
  obtain ⟨hs, hc⟩ := resume_vacant (vacant_of_none hg) r
  obtain ⟨hs', hc'⟩ := resume_vacant (vacant_of_none hstill) r
  constructor
  · rw [hs, hs']
    exact .refl _
  · rw [hs, hc, hc', List.append_nil]
    exact .refl _

theorem Trades.symm (h : s.Trades key key' r r') : s.Trades key' key r' r := ⟨h.server.symm, h.course.symm⟩

/-- both reports are about one connection: whatever either of them resumes is resumed by the first -/
theorem trades_same (hm : s.Mustered fixed) (hothers : s.host.others = []) (hg : s.connections.get? key = some conn)
    (r r' : Readiness) : s.Trades key key r r' := by
  have hstands := hm.stands hg
  have hget : ∀ q, (s.resume key q).server.connections.get? key =
      some (conn.heard q (s.host.grants conn.descriptor)) := fun q =>
    (get?_resume hothers hstands q key).trans (if_pos rfl)
  obtain ⟨hs, hc⟩ := resume_resume_eq hm hothers hstands r r' (hget r)
  obtain ⟨hs', hc'⟩ := resume_resume_eq hm hothers hstands r' r (hget r')
  let granted := s.host.grants conn.descriptor
  have hperm := conn.roused_heard r r' granted
  obtain ⟨-, hone⟩ := hm.names (conn.roused r ++ (conn.heard r granted).roused r') fun h hmem => by
    refine ⟨_, conn, hg, ?_⟩
    rcases List.mem_append.1 hmem with hmem | hmem
    · exact Connection.mem_handles_of_roused hmem
    · exact Connection.mem_handles_of_heard (Connection.mem_handles_of_roused hmem)
  obtain ⟨hheed, hheard⟩ := s.host.heed_heed_same key conn r r'
  constructor
  · rw [hs, hs', hheed]
    refine twin_rebuilt ?_ (.refl _) (Tasks.twin_wakes_perm hperm hone _)
    rw [Slots.set_set hg, Slots.set_set hg]
    exact congrArg _ hheard
  · rw [hc, hc']
    exact hperm.map _

/-- they are about two connections, each of which is left alone by the report on the other -/
theorem trades_apart (hm : s.Mustered fixed) (hothers : s.host.others = []) (hg : s.connections.get? key = some conn)
    (hg' : s.connections.get? key' = some conn') (hkeys : key' ≠ key) (r r' : Readiness) :
    s.Trades key key' r r' := by
  have hstands := hm.stands hg
  have hstands' := hm.stands hg'
  obtain ⟨hs, hc⟩ := resume_resume_eq hm hothers hstands r r'
    ((get?_resume hothers hstands r key').trans ((if_neg hkeys).trans hg'))
  obtain ⟨hs', hc'⟩ := resume_resume_eq hm hothers hstands' r' r
    ((get?_resume hothers hstands' r' key).trans ((if_neg hkeys.symm).trans hg))
  have hperm : (conn.roused r ++ conn'.roused r').Perm (conn'.roused r' ++ conn.roused r) := List.perm_append_comm
  obtain ⟨-, hone⟩ := hm.names (conn.roused r ++ conn'.roused r') fun h hmem => by
    rcases List.mem_append.1 hmem with hmem | hmem
    · exact ⟨key, conn, hg, Connection.mem_handles_of_roused hmem⟩
    · exact ⟨key', conn', hg', Connection.mem_handles_of_roused hmem⟩
  obtain ⟨i, hd⟩ := hstands.far
  obtain ⟨j, hd'⟩ := hstands'.far
  obtain ⟨batch, hc₀⟩ := hm.table
  have hne : conn.descriptor ≠ conn'.descriptor := fun hsame => hkeys (hc₀.slot_unique hg' hg hsame.symm)
  constructor
  · rw [hs, hs', Host.grants_heed hne.symm, Host.grants_heed hne]
    refine twin_rebuilt (Slots.set_comm hg hg' hkeys.symm) ?_ (Tasks.twin_wakes_perm hperm hone _)
    exact Host.heed_heed hm.sound hd' hstands'.watched hd hstands.watched hne
  · rw [hc, hc']
    exact hperm.map _

/-- **Two reports on connections may change places** -/
theorem twin_resume_resume (hm : s.Mustered fixed) (hothers : s.host.others = []) (key key' : Nat)
    (r r' : Readiness) : s.Trades key key' r r' := by
  cases hg : s.connections.get? key with
  | none => exact trades_vacant hg key' r r'
  | some conn =>
    cases hg' : s.connections.get? key' with
    | none => exact (trades_vacant hg' key r' r).symm
    | some conn' =>
      by_cases hkeys : key' = key
      · subst hkeys
        exact trades_same hm hothers hg r r'
      · exact trades_apart hm hothers hg hg' hkeys r r'

/-! ## A report on a connection, and one on the listener -/

/-- a slot where nobody is parked stays so, or a connection is taken in there on which nobody is parked -/
theorem vacant_acceptUpTo (hm : s.Mustered fixed) (hothers : s.host.others = [])
    (hv : ∀ conn, s.connections.get? key = some conn → conn.Vacant) (limit : Nat) :
    ∀ conn, (s.acceptUpTo limit).server.connections.get? key = some conn → conn.Vacant := by
  induction limit generalizing s with
  | zero => exact hv
  | succ limit ih =>
    obtain ⟨hm', hu, ⟨-, hs, -⟩ | ⟨d, peer, i, -, hd, -, hwelcomed, hs, -⟩⟩ := acceptUpTo_cases hm hothers limit
    · rw [hs]
      exact hv
    · have hothers' := hu.others.trans hothers
      rw [hs]
      refine ih hwelcomed ((unmet_welcome hothers' hd peer).others.trans hothers') fun conn hg => ?_
      obtain ⟨batch, hc⟩ := hm'.table
      rcases welcome_eq hothers' d peer with ⟨-, -, hw, -⟩ | ⟨-, hw, -⟩
      · rw [hw] at hg
        exact hv conn hg
      · rw [hw, Connections.get?, Slots.get?_insert hc.tidy] at hg
        split at hg
        · cases hg
          exact ⟨rfl, rfl, rfl⟩
        · exact hv conn hg

/-- a report and an accepting call -/
theorem twin_resume_accept (hm : s.Mustered fixed) (hothers : s.host.others = []) (hs : s.Stands key conn)
    (r : Readiness) :
    let s' := s.onHost fun _ => (s.host.acquire s.listener).1
    s'.Stands key conn ∧
      (s'.resume key r).server.Twin ((s.resume key r).server.onHost fun _ =>
        ((s.resume key r).server.host.acquire s.listener).1) ∧
      ((s.resume key r).server.host.acquire s.listener).2 = (s.host.acquire s.listener).2 ∧
      (s'.resume key r).course = (s.resume key r).course := by
  have hm' := hm.accepted
  rw [Nonblocking.accept_eq hothers] at hm'
  have hstands : (s.onHost fun _ => (s.host.acquire s.listener).1).Stands key conn := hm'.stands hs.live
  have hu := s.host.unmet_acquire s.listener
  obtain ⟨i, hd⟩ := hs.far
  obtain ⟨htwin, hvalue⟩ := Host.heed_acquire hm.sound hd hs.watched s.listener key r
  obtain ⟨hs₁, hc₁⟩ := resume_eq hothers hs r
  obtain ⟨hs₂, hc₂⟩ := resume_eq (s := s.onHost fun _ => (s.host.acquire s.listener).1) (hu.others.trans hothers)
    hstands r
  have hgrants : (s.onHost fun _ => (s.host.acquire s.listener).1).host.grants conn.descriptor =
      s.host.grants conn.descriptor := congrArg Option.isNone (hu.change? conn.descriptor)
  refine ⟨hstands, ?_, ?_, hc₂.trans hc₁.symm⟩
  · rw [hs₂, hgrants, hs₁]
    exact ⟨_, _, rfl, htwin, .refl _⟩
  · rw [hs₁]
    exact hvalue

/-- a connection stays where it is while another is taken in, and what changes of its watch will meet is as it was -/
theorem stands_welcome (hm : s.Mustered fixed) (hothers : s.host.others = []) (hs : s.Stands key conn)
    {d : Descriptor} {i : Nat} (hd : s.host.device? d = some (.stream i .far)) (hw : s.host.watch? d = none)
    (peer : Address) :
    (s.welcome d peer).server.Stands key conn ∧ (s.welcome d peer).server.host.others = [] ∧
      (s.welcome d peer).server.host.grants conn.descriptor = s.host.grants conn.descriptor := by
  obtain ⟨batch, hc⟩ := hm.table
  have hkey : key ≠ s.connections.slots.nextKey := fun he => by
    have hlive := hs.live
    rw [he, Connections.get?, Slots.get?_nextKey hc.tidy] at hlive
    cases hlive
  have hget : (s.welcome d peer).server.connections.get? key = some conn := by
    rcases welcome_eq hothers d peer with ⟨-, -, he, -⟩ | ⟨-, he, -⟩
    · rw [he]
      exact hs.live
    · rw [he]
      exact (Slots.get?_insert hc.tidy ..).trans ((if_neg hkey).trans hs.live)
  have hu := unmet_welcome hothers hd peer
  exact ⟨(hm.welcome hd hw peer).stands hget, hu.others.trans hothers,
    congrArg Option.isNone (hu.change? conn.descriptor)⟩

/-- a report, and taking another connection in -/
theorem twin_resume_welcome (hm : s.Mustered fixed) (hothers : s.host.others = []) (hs : s.Stands key conn)
    {d : Descriptor} {i : Nat} (hd : s.host.device? d = some (.stream i .far)) (hw : s.host.watch? d = none)
    (peer : Address) (r : Readiness) :
    (s.welcome d peer).server.Stands key conn ∧
      ((s.welcome d peer).server.resume key r).server.Twin ((s.resume key r).server.welcome d peer).server ∧
      ((s.welcome d peer).server.resume key r).course = (s.resume key r).course ∧
      ((s.resume key r).server.welcome d peer).course = (s.welcome d peer).course := by
  obtain ⟨batch, hc⟩ := hm.table
  have hne : d ≠ conn.descriptor := fun he => by
    have hwatched := hs.watched
    rw [← he, hw] at hwatched
    cases hwatched
  obtain ⟨hstands, hothers', hgrants⟩ := stands_welcome hm hothers hs hd hw peer
  obtain ⟨j, hfar⟩ := hs.far
  obtain ⟨henlist, hvalue⟩ := Host.heed_enlist hm.sound hfar hs.watched hd hne
    s.connections.slots.nextKey key r
  obtain ⟨hs₁, hc₁⟩ := resume_eq hothers hs r
  obtain ⟨hs₂, hc₂⟩ := resume_eq hothers' hstands r
  have hothers₁ := (others_resume hm hothers key r).trans hothers
  have hnext : (s.resume key r).server.connections.slots.nextKey = s.connections.slots.nextKey := by
    rw [hs₁]
    exact Slots.nextKey_set hs.live
  have hhost₁ : (s.resume key r).server.host = s.host.heed key conn r := congrArg host hs₁
  rw [hgrants] at hs₂
  refine ⟨hstands, ?_⟩
  have hafter := welcome_eq hothers₁ d peer
  rw [hnext, hhost₁, hvalue] at hafter
  rcases welcome_eq hothers d peer with ⟨fault, hr, hw₁, hcourse⟩ | ⟨hr, hw₁, hcourse⟩
  · rcases hafter with ⟨fault', -, hw₂, hcourse'⟩ | ⟨hr', -⟩
    · refine ⟨?_, hc₂.trans hc₁.symm, hcourse'.trans hcourse.symm⟩
      rw [hs₂, hw₂, hw₁, hs₁]
      exact ⟨_, _, rfl, henlist, .refl _⟩
    · rw [hr] at hr'
      cases hr'
  · rcases hafter with ⟨fault', hr', -⟩ | ⟨-, hw₂, hcourse'⟩
    · rw [hr] at hr'
      cases hr'
    · obtain ⟨hold, -⟩ := hm.names (conn.roused r) fun h hmem =>
        ⟨key, conn, hs.live, Connection.mem_handles_of_roused hmem⟩
      obtain ⟨hpush, hserved⟩ := Tasks.twin_push_wakes (t := s.engine.tasks) (conn.roused r) hold
        (⟨⟨s.connections.slots.nextKey, peer⟩, s.engine.protocol.start⟩ : ConnectionTask X)
        (some s.connections.slots.nextKey)
      refine ⟨?_, hc₂.trans hc₁.symm, ?_⟩
      · have hslots : (s.resume key r).server.connections.slots.insert { descriptor := d, peer } =
            (s.connections.slots.insert { descriptor := d, peer }).set key
              (conn.heard r (s.host.grants conn.descriptor)) := by
          rw [hs₁]
          exact Slots.insert_set hc.tidy hs.live
        rw [hs₂, hw₂, hslots, hw₁, hs₁]
        exact ⟨_, _, rfl, henlist, hpush⟩
      · rw [hcourse', hcourse, hs₁]
        exact congrArg (fun h => [Happening.pushed h]) hserved

/-- **A report on a connection and accepting may change places** -/
theorem twin_resume_acceptUpTo (hm : s.Mustered fixed) (hothers : s.host.others = []) (key : Nat) (r : Readiness)
    (limit : Nat) :
    ((s.acceptUpTo limit).server.resume key r).server.Twin ((s.resume key r).server.acceptUpTo limit).server ∧
      ((s.acceptUpTo limit).server.resume key r).course = (s.resume key r).course ∧
      ((s.resume key r).server.acceptUpTo limit).course = (s.acceptUpTo limit).course := by
  cases hg : s.connections.get? key with
  | none =>
    obtain ⟨hs, hc⟩ := resume_vacant (vacant_of_none hg) r
    obtain ⟨hs', hc'⟩ := resume_vacant (vacant_acceptUpTo hm hothers (vacant_of_none hg) limit) r
    rw [hs, hs', hc, hc']
    exact ⟨.refl _, rfl, rfl⟩
  | some conn =>
    -- the connection stays where it is while others are taken in, so the report goes past them one by one
    induction limit generalizing s with
    | zero => exact ⟨.refl _, rfl, rfl⟩
    | succ limit ih =>
      obtain ⟨hm', hu, hcases⟩ := acceptUpTo_cases hm hothers limit
      have hothers' := hu.others.trans hothers
      obtain ⟨hstands, haccept, hvalue, hcourse⟩ := twin_resume_accept hm hothers (hm.stands hg) r
      have hmₖ := hm.resume key r
      have hothersₖ := (others_resume hm hothers key r).trans hothers
      obtain ⟨hmₖ', -, hcasesₖ⟩ := acceptUpTo_cases hmₖ hothersₖ limit
      have hlistener : (s.resume key r).server.listener = s.listener := rfl
      rw [hlistener] at hmₖ' hcasesₖ
      rcases hcases with ⟨hnone, hs, hc⟩ | ⟨d, peer, i, hr, hd, hw, hwelcomed, hs, hc⟩
      · rcases hcasesₖ with ⟨-, hsₖ, hcₖ⟩ | ⟨d', peer', i', hr', -⟩
        · rw [hs, hsₖ, hc, hcₖ]
          exact ⟨haccept, hcourse, rfl⟩
        · exact absurd (hvalue.symm.trans hr') (hnone _)
      · rcases hcasesₖ with ⟨hnone, -⟩ | ⟨d', peer', i', hr', -, -, hwelcomedₖ, hsₖ, hcₖ⟩
        · exact absurd (hvalue.trans hr) (hnone _)
        cases (hvalue.trans hr).symm.trans hr'
        obtain ⟨hstands', hwelcome, hcourse', hwelcome'⟩ :=
          twin_resume_welcome hm' hothers' hstands hd hw peer r
        have hothers'' := (unmet_welcome hothers' hd peer).others.trans hothers'
        obtain ⟨hrest, hcourse'', hrest'⟩ := ih hwelcomed hothers'' hstands'.live
        have hd' : ((s.onHost fun _ => (s.host.acquire s.listener).1).resume key r).server.host.device? d =
            some (.stream i .far) := by
          rw [(resume_eq hothers' hstands r).1]
          exact (Host.device?_heed ..).trans hd
        obtain ⟨hboth, hboth'⟩ := haccept.welcome
          ((others_resume hm' hothers' key r).trans hothers') hd' peer
        obtain ⟨hlast, hlast'⟩ := (hwelcome.trans hboth).acceptUpTo (hwelcomed.resume key r) hwelcomedₖ
          ((others_resume hwelcomed hothers'' key r).trans hothers'') limit
        rw [hs, hsₖ, hc, hcₖ]
        refine ⟨hrest.trans hlast, hcourse''.trans (hcourse'.trans hcourse), ?_⟩
        rw [hboth', hwelcome', hlast', hrest']

/-! ## Batches -/

/-- two ways of dealing with the same come to twins, and the same happens in them in another order; new tasks come in
the same order -/
structure Reordered (w w' : Worked X) : Prop where
  server : w.server.Twin w'.server
  course : w.course.Perm w'.course
  pushed : w'.course.filterMap Happening.pushed? = w.course.filterMap Happening.pushed?

theorem Reordered.refl (w : Worked X) : Reordered w w := ⟨.refl _, .refl _, rfl⟩

theorem Reordered.trans {w w' w'' : Worked X} (h : Reordered w w') (h' : Reordered w' w'') : Reordered w w'' :=
  ⟨h.server.trans h'.server, h.course.trans h'.course, h'.pushed.trans h.pushed⟩

/-- nobody new comes of a report on a connection -/
theorem pushed_resume (s : Server X) (key : Nat) (r : Readiness) :
    (s.resume key r).course.filterMap Happening.pushed? = [] := by
  simp [resume, Happening.pushed?]

/-- two reports that follow each other, in either order -/
theorem reordered_handle (hm : s.Mustered fixed) (hothers : s.host.others = []) (hr : r.token ≠ .signals)
    (hr' : r'.token ≠ .signals) :
    ((s.handle r).1.server.handle r').1.server.Twin ((s.handle r').1.server.handle r).1.server ∧
      ((s.handle r).1.course ++ ((s.handle r).1.server.handle r').1.course).Perm
        ((s.handle r').1.course ++ ((s.handle r').1.server.handle r).1.course) ∧
      ((s.handle r').1.course ++ ((s.handle r').1.server.handle r).1.course).filterMap Happening.pushed? =
        ((s.handle r).1.course ++ ((s.handle r).1.server.handle r').1.course).filterMap Happening.pushed? := by
  have hcallers : ∀ key q, (s.resume key q).server.host.callers (s.resume key q).server.listener =
      s.host.callers s.listener := fun key q => by
    cases hg : s.connections.get? key with
    | none => rw [(resume_vacant (vacant_of_none hg) q).1]
    | some conn =>
      rw [(resume_eq hothers (hm.stands hg) q).1]
      exact Host.callers_heed ..
  cases ht : r.token with
  | signals => exact absurd ht hr
  | listener =>
    cases ht' : r'.token with
    | signals => exact absurd ht' hr'
    | listener =>
      simp only [handle, ht, ht']
      exact ⟨.refl _, .refl _, trivial⟩
    | connection key' =>
      obtain ⟨htwin, hcourse, hcourse'⟩ := twin_resume_acceptUpTo hm hothers key' r' (s.host.callers s.listener + 1)
      simp only [handle, ht, ht', acceptAll, hcallers, hcourse, hcourse', List.filterMap_append, pushed_resume,
        List.append_nil, List.nil_append, and_true]
      exact ⟨htwin, List.perm_append_comm⟩
  | connection key =>
    cases ht' : r'.token with
    | signals => exact absurd ht' hr'
    | listener =>
      obtain ⟨htwin, hcourse, hcourse'⟩ := twin_resume_acceptUpTo hm hothers key r (s.host.callers s.listener + 1)
      simp only [handle, ht, ht', acceptAll, hcallers, hcourse, hcourse', List.filterMap_append, pushed_resume,
        List.append_nil, List.nil_append, and_true]
      exact ⟨htwin.symm, List.perm_append_comm⟩
    | connection key' =>
      obtain ⟨htwin, hcourse⟩ := twin_resume_resume hm hothers key key' r r'
      simp only [handle, ht, ht', List.filterMap_append, pushed_resume, and_true]
      exact ⟨htwin, hcourse⟩

/-- no report of such a batch stops the server -/
theorem dispatch_goes (hm : s.Mustered fixed) (hothers : s.host.others = []) {batch : List Readiness}
    (hcalm : ∀ r ∈ batch, r.token ≠ .signals) : (s.dispatch batch).2 = none := by
  induction batch generalizing s with
  | nil => rfl
  | cons r rest ih =>
    have hr := hcalm r List.mem_cons_self
    rw [(dispatch_cons hm hothers hr rest).2.2]
    exact ih (hm.handle r) ((goes_handle hm hothers hr).1.trans hothers) fun q hq =>
      hcalm q (List.mem_cons_of_mem _ hq)

/-- **A batch in any order** comes to twins -/
theorem reordered_dispatch {batch batch' : List Readiness} (hp : batch.Perm batch') (hm : s.Mustered fixed)
    (hothers : s.host.others = [])
    (hcalm : ∀ r ∈ batch, r.token ≠ .signals) : Reordered (s.dispatch batch).1 (s.dispatch batch').1 := by
  induction hp generalizing s with
  | nil => exact .refl _
  | @cons r rest rest' hp ih =>
    have hr := hcalm r List.mem_cons_self
    obtain ⟨htwin, hcourse, hpushed⟩ := ih (hm.handle r) ((goes_handle hm hothers hr).1.trans hothers) fun q hq =>
      hcalm q (List.mem_cons_of_mem _ hq)
    obtain ⟨hs, hc, -⟩ := dispatch_cons hm hothers hr rest
    obtain ⟨hs', hc', -⟩ := dispatch_cons hm hothers hr rest'
    refine ⟨hs ▸ hs' ▸ htwin, ?_, ?_⟩
    · rw [hc, hc']
      exact hcourse.append_left _
    · rw [hc, hc', List.filterMap_append, List.filterMap_append, hpushed]
  | swap r' r rest =>
    have hr := hcalm r List.mem_cons_self
    have hr' := hcalm r' (List.mem_cons_of_mem _ List.mem_cons_self)
    have hrest : ∀ q ∈ rest, q.token ≠ .signals := fun q hq =>
      hcalm q (List.mem_cons_of_mem _ (List.mem_cons_of_mem _ hq))
    obtain ⟨htwin, hcourse, hpushed⟩ := reordered_handle hm hothers hr hr'
    have hothers₁ := (goes_handle hm hothers hr).1.trans hothers
    have hothers₂ := (goes_handle hm hothers hr').1.trans hothers
    obtain ⟨hlast, hlast'⟩ := htwin.dispatch ((hm.handle r).handle r') ((hm.handle r').handle r)
      ((goes_handle (hm.handle r) hothers₁ hr').1.trans hothers₁) hrest
    obtain ⟨hs₁, hc₁, -⟩ := dispatch_cons hm hothers hr (r' :: rest)
    obtain ⟨hs₂, hc₂, -⟩ := dispatch_cons (hm.handle r) hothers₁ hr' rest
    obtain ⟨hs₁', hc₁', -⟩ := dispatch_cons hm hothers hr' (r :: rest)
    obtain ⟨hs₂', hc₂', -⟩ := dispatch_cons (hm.handle r') hothers₂ hr rest
    refine ⟨?_, ?_, ?_⟩
    · rw [hs₁, hs₂, hs₁', hs₂']
      exact hlast
    · rw [hc₁, hc₂, hc₁', hc₂', hlast', ← List.append_assoc, ← List.append_assoc]
      exact hcourse.append_right _
    · rw [hc₁, hc₂, hc₁', hc₂', hlast', ← List.append_assoc, ← List.append_assoc, List.filterMap_append, hpushed,
        ← List.filterMap_append]
  | trans hp _ ih ih' =>
    exact (ih hm hothers hcalm).trans (ih' hm hothers fun q hq => hcalm q (hp.mem_iff.2 hq))

end Server

/-- what two ways of dealing with the same have in common: the table with whom is parked on whose connection and what is
watched there, the ledger, the tasks in their slots, whom was woken how often, who is new, and who is queued, though
perhaps not in which order; and each is queued once -/
structure Worked.Agrees (w w' : Worked X) : Prop where
  twin : w.server.Twin w'.server
  slots : w'.server.connections.slots = w.server.connections.slots
  watches : w'.server.host.watches = w.server.host.watches
  registrations : w'.server.connections.notifier.registrations = w.server.connections.notifier.registrations
  deregistrations : w'.server.connections.notifier.deregistrations = w.server.connections.notifier.deregistrations
  tasks : w'.server.engine.tasks.slots = w.server.engine.tasks.slots
  woken : (w'.course.filterMap Happening.woken?).Perm (w.course.filterMap Happening.woken?)
  pushed : w'.course.filterMap Happening.pushed? = w.course.filterMap Happening.pushed?
  queue : w'.server.engine.tasks.queue.Perm w.server.engine.tasks.queue
  once : w.server.engine.tasks.queue.Nodup ∧ w'.server.engine.tasks.queue.Nodup

theorem Server.Reordered.agrees {w w' : Worked X} (h : Server.Reordered w w') (hl : w.server.engine.tasks.Lined)
    (hl' : w'.server.engine.tasks.Lined) : w.Agrees w' := by
  obtain ⟨host, tasks, hs, hhost, htasks⟩ := h.server
  have hqueue : w'.server.engine.tasks.queue.Perm w.server.engine.tasks.queue := by
    rw [hs]
    exact htasks.queue
  have hslots : w'.server.engine.tasks.slots = w.server.engine.tasks.slots := by
    rw [hs]
    exact htasks.slots
  have hwatches : w'.server.host.watches = w.server.host.watches := by
    rw [hs]
    exact hhost.part Host.watches fun _ _ => rfl
  refine ⟨h.server, ?_, hwatches, ?_, ?_, hslots, (h.course.filterMap _).symm, h.pushed, hqueue, hl.once, hl'.once⟩
  all_goals
    rw [hs]
    rfl

/-- **The order of the reports in a batch does not matter.** Whenever a report may come, a batch about connections and
the listener is dealt with to its end in any order, if nobody else acts meanwhile; what the kernel refuses of what is
asked of it for one descriptor does not depend on what is asked for others. What comes of it agrees with what comes of
it in any other order: the same table, watches and ledger, the same tasks in the same slots, as many wakes for each, and
a queue that is the same but for its order, where nobody stands twice. -/
theorem order_irrelevant {host : Host} {settings : Settings} {protocol : Http.Protocol X} {first s : Server X}
    {batch batch' : List Readiness} (hh : host.Sound) (hw : host.watches = [])
    (hb : (Server.bind host settings protocol).server = .ok first) (ha : AtHand first s)
    (hothers : s.host.others = []) (hcalm : ∀ r ∈ batch, r.token ≠ .signals)
    (hp : batch.Perm batch') :
    (s.dispatch batch).2 = none ∧ (s.dispatch batch').2 = none ∧ (s.dispatch batch).1.Agrees (s.dispatch batch').1 := by
  have hm := ha.mustered (Server.upholds_bind False hh hw False.elim hb) (Server.mustered_bind hh hw hb)
  have hcalm' : ∀ r ∈ batch', r.token ≠ .signals := fun r hr => hcalm r (hp.mem_iff.2 hr)
  exact ⟨Server.dispatch_goes hm hothers hcalm, Server.dispatch_goes hm hothers hcalm',
    (Server.reordered_dispatch hp hm hothers hcalm).agrees (hm.dispatch batch).lined (hm.dispatch batch').lined⟩

namespace Sample

/-- somebody calls, the client of the first connection has sent and has read, and a report is about the slot that the
caller gets -/
def batch : List Readiness :=
  [⟨.listener, true, false, false⟩, ⟨.connection 0, true, true, false⟩, ⟨.connection 1, false, false, true⟩]

end Sample

/-- the call is taken before the report on the first connection, or after it -/
theorem order_irrelevant_answered :
    (Sample.answered.dispatch Sample.batch).2 = none ∧ (Sample.answered.dispatch Sample.batch.reverse).2 = none ∧
      (Sample.answered.dispatch Sample.batch).1.Agrees (Sample.answered.dispatch Sample.batch.reverse).1 :=
  order_irrelevant Sample.sound_empty rfl Sample.bind_first (.reached Sample.reached_answered) (by decide +kernel)
    (by decide +kernel) (List.reverse_perm _).symm

end EventServer
