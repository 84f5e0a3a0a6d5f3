/-
What a notifier's ledger says, for any calls on any descriptors. Nothing is asked of the host but that its watch is
empty at first: descriptors may be unknown, of a kind that cannot be watched, watched already or not at all, refusals
may come at any call, and clients may close what is watched of theirs.

A closing takes the descriptor's watch with it and is not in the ledger, so the history says which watches ended that
way (`vanishings`): those that a closing of the server's took, and those that clients closed before a call (`lost`).
`Drops` is the frame of such steps. One request is refused and leaves the watch and both counters as they were
(`Request.Refused`), or it does what it is for (`Request.Granted`); `after_spec` has no third case. The run is then an
induction over the requests (`Balanced.after`, `ledger_exact`).
-/
import EventServer.Proofs.Operations
import EventServer.Proofs.Steady

namespace EventServer

namespace Host

variable {h h' : Host} {gone : List Descriptor} {d : Descriptor}

/-! ## What closings take -/

/-- the watches but for those on some descriptors -/
def without (watches : List Watch) (gone : List Descriptor) : List Watch :=
  watches.filter fun w => !gone.contains w.descriptor

/-- the descriptor if it is watched -/
def watched (h : Host) (d : Descriptor) : List Descriptor := if (h.watch? d).isSome then [d] else []

/-- the watched descriptor that a deed closes, if it does -/
def closedBy (h : Host) : Deed → List Descriptor
  | .close d _ => if (h.client? d).isSome then h.watched d else []
  | _ => []

/-- the watched descriptors that others close when they do these deeds -/
def closedIn (h : Host) : List Deed → List Descriptor
  | [] => []
  | deed :: deeds => h.closedBy deed ++ (h.act deed).closedIn deeds

/-- the watched descriptors that others close before the next call -/
def lost (h : Host) : List Descriptor :=
  ({ h with others := h.others.tail } : Host).closedIn (h.others.headD [])

/-- a step ends the watches of some descriptors, each of which was watched, and no other watch changes -/
structure Drops (gone : List Descriptor) (h h' : Host) : Prop where
  watches : h'.watches = without h.watches gone
  watched : ∀ d ∈ gone, d ∈ h.watches.map (·.descriptor)
  once : gone.Nodup

theorem mem_map_without {watches : List Watch} :
    d ∈ (without watches gone).map (·.descriptor) ↔ d ∈ watches.map (·.descriptor) ∧ d ∉ gone := by
  simp only [without, List.mem_map, List.mem_filter, Bool.not_eq_true', List.contains_eq_mem, decide_eq_false_iff_not]
  constructor
  · rintro ⟨w, ⟨hw, hgone⟩, rfl⟩
    exact ⟨⟨w, hw, rfl⟩, hgone⟩
  · rintro ⟨⟨w, hw, rfl⟩, hgone⟩
    exact ⟨w, ⟨hw, hgone⟩, rfl⟩

theorem drops_of_watches (hw : h'.watches = h.watches) : Drops [] h h' where
  watches := hw.trans (by simp [without])
  watched := by simp
  once := .nil

theorem Drops.trans {a b c : Host} {first second : List Descriptor} (hab : Drops first a b) (hbc : Drops second b c) :
    Drops (first ++ second) a c where
  watches := by
    rw [hbc.watches, hab.watches, without, without, List.filter_filter]
    refine List.filter_congr fun w _ => ?_
    simp only [List.contains_eq_mem, List.mem_append]
    by_cases h₁ : w.descriptor ∈ first <;> by_cases h₂ : w.descriptor ∈ second <;> simp [h₁, h₂]
  watched d hd := by
    rcases List.mem_append.1 hd with hd | hd
    · exact hab.watched d hd
    · have hb := hbc.watched d hd
      rw [hab.watches] at hb
      exact (mem_map_without.1 hb).1
  once := by
    refine List.nodup_append.2 ⟨hab.once, hbc.once, fun x hx y hy he => ?_⟩
    have hb := hbc.watched y hy
    rw [hab.watches] at hb
    exact (mem_map_without.1 hb).2 (he ▸ hx)

/-- each descriptor that is dropped takes one watch with it -/
theorem Drops.length (hd : Drops gone h h') (honce : (h.watches.map (·.descriptor)).Nodup) :
    h.watches.length = h'.watches.length + gone.length := by
  have hsub : (h'.watches.map (·.descriptor)).Nodup := by
    rw [hd.watches]
    exact honce.sublist (List.filter_sublist.map _)
  have hperm : (h.watches.map (·.descriptor)).Perm (h'.watches.map (·.descriptor) ++ gone) := by
    refine (List.perm_ext_iff_of_nodup honce (List.nodup_append.2 ⟨hsub, hd.once, fun x hx y hy he => ?_⟩)).2
      fun x => ?_
    · rw [hd.watches] at hx
      exact (mem_map_without.1 hx).2 (he ▸ hy)
    · rw [List.mem_append, hd.watches, mem_map_without]
      constructor
      · exact fun hx => or_iff_not_imp_right.2 fun hgone => ⟨hx, hgone⟩
      · exact fun hx => hx.elim And.left (hd.watched x)
  simpa using hperm.length_eq

theorem Drops.nodup (hd : Drops gone h h') (honce : (h.watches.map (·.descriptor)).Nodup) :
    (h'.watches.map (·.descriptor)).Nodup := by
  rw [hd.watches]
  exact honce.sublist (List.filter_sublist.map _)

theorem drops_close (h : Host) (d : Descriptor) (abrupt : Bool) : Drops (h.watched d) h (h.close d abrupt) := by
  obtain ⟨hwatches, -⟩ := h.close_spec d abrupt
  unfold Host.watched
  cases hw : h.watch? d with
  | none => exact drops_of_watches (hwatches.trans (filter_watches_of_none hw))
  | some w =>
    obtain ⟨hmem, rfl⟩ := mem_watches hw
    refine ⟨hwatches.trans (List.filter_congr fun v _ => ?_), ?_, by simp⟩
    · simp [bne, Bool.beq_eq_decide_eq]
    · simpa using ⟨w, hmem, rfl⟩

theorem drops_act (h : Host) (deed : Deed) : Drops (h.closedBy deed) h (h.act deed) := by
  cases deed with
  | connect listener self => exact drops_of_watches (steady_connect h listener self).watches
  | send d bytes =>
    refine drops_of_watches ?_
    simp only [act]
    split
    · exact (steady_transmit h d bytes).watches
    · rfl
  | recv d count =>
    refine drops_of_watches ?_
    simp only [act]
    split
    · exact (steady_receive h d count).watches
    · rfl
  | finish d =>
    refine drops_of_watches ?_
    simp only [act]
    split
    · exact (steady_finish h d).watches
    · rfl
  | close d abrupt =>
    simp only [act, closedBy]
    split
    · exact drops_close h d abrupt
    · exact drops_of_watches rfl
  | signal number => exact drops_of_watches (steady_raise h number).watches
  | interrupt => exact drops_of_watches rfl

theorem drops_elapse (h : Host) : Drops h.lost h h.elapse := by
  have hacts : ∀ (deeds : List Deed) (g : Host), Drops (g.closedIn deeds) g (deeds.foldl act g) := by
    intro deeds
    induction deeds with
    | nil => exact fun g => drops_of_watches rfl
    | cons deed rest ih => exact fun g => (drops_act g deed).trans (ih (g.act deed))
  have hrest : Drops [] h { h with others := h.others.tail } := drops_of_watches rfl
  exact hrest.trans (hacts _ _)

/-- a descriptor enters the watch only if it is not there -/
theorem watch?_of_watch {word : UInt64} {interest : Interest} (hw : (h.watch d word interest).2 = .ok ()) :
    h.watch? d = none := by
  unfold watch at hw
  dsimp only at hw
  split at hw
  · cases hw
  · cases hw
  · split at hw
    · cases hw
    · assumption

end Host

namespace Notifier

variable {n : Notifier}

/-! ## Requests -/

/-- what a notifier may be asked for, and what may happen to its descriptors meanwhile -/
inductive Request where
  | register (d : Descriptor) (token : Token) (interest : Interest)
  | reregister (d : Descriptor) (token : Token) (interest : Interest)
  | deregister (d : Descriptor)
  | close (d : Descriptor) (abrupt : Bool)
  /-- any other call on the host, which leaves the watch to itself -/
  | call (change : Host → Host) (keeps : ∀ h, (change h).watches = h.watches)

/-- the notifier after a request -/
def after (n : Notifier) : Request → Notifier
  | .register d token interest => (n.register d token interest).state
  | .reregister d token interest => (n.reregister d token interest).state
  | .deregister d => (n.deregister d).1
  | .close d abrupt => n.onHost fun h => h.elapse.close d abrupt
  | .call change _ => n.onHost fun h => change h.elapse

/-- what a request is answered with -/
def answer (n : Notifier) : Request → Except WatchFault Unit
  | .register d token interest => (n.register d token interest).value
  | .reregister d token interest => (n.reregister d token interest).value
  | .deregister d => (n.deregister d).2.mapError .refused
  | .close .. | .call .. => .ok ()

namespace Request

/-- the token that a request brings its descriptor under -/
def token? : Request → Option Token
  | register _ token _ | reregister _ token _ => some token
  | deregister _ | close .. | call .. => none

/-- what a request makes of the watches that it meets -/
def effect (watches : List Watch) : Request → List Watch
  | register d token interest => watches ++ (token.word?.map fun word => ⟨d, word, interest⟩).toList
  | reregister d token interest => (token.word?.map (Host.rewatched watches d · interest)).getD watches
  | deregister d => watches.filter (·.descriptor != d)
  | close .. | call .. => watches

/-- what a request adds to the registrations -/
def entries : Request → Nat
  | register .. => 1
  | reregister .. | deregister _ | close .. | call .. => 0

/-- what a request adds to the deregistrations -/
def departures : Request → Nat
  | deregister _ => 1
  | register .. | reregister .. | close .. | call .. => 0

end Request

/-- the watched descriptors that are closed with a request: by others before its call, or by the request -/
def closings (n : Notifier) : Request → List Descriptor
  | .register _ token _ | .reregister _ token _ => if token.word?.isSome then n.host.lost else []
  | .deregister _ | .call .. => n.host.lost
  | .close d _ => n.host.lost ++ n.host.elapse.watched d

/-- the watched descriptors that are closed in the course of requests -/
def vanishings (n : Notifier) : List Request → List Descriptor
  | [] => []
  | request :: rest => n.closings request ++ (n.after request).vanishings rest

/-- a request is refused: the watch is what closings leave of it, and nothing is counted. A slot without a word is
found out before the host is called -/
structure Refuses (n : Notifier) (request : Request) (fault : WatchFault) : Prop where
  answer : n.answer request = .error fault
  watches : (n.after request).host.watches = Host.without n.host.watches (n.closings request)
  registrations : (n.after request).registrations = n.registrations
  deregistrations : (n.after request).deregistrations = n.deregistrations
  untouched : fault = .slotTooLarge → n.after request = n

/-- a request is granted: it has its effect on what closings leave of the watch, and is counted -/
structure Grants (n : Notifier) (request : Request) : Prop where
  answer : n.answer request = .ok ()
  watches : (n.after request).host.watches = request.effect (Host.without n.host.watches (n.closings request))
  registrations : (n.after request).registrations = n.registrations + request.entries
  deregistrations : (n.after request).deregistrations = n.deregistrations + request.departures

/-- a slot has no word if it is one of the two last of its range, or beyond -/
theorem word?_connection_eq_none {slot : Nat} : (Token.connection slot).word? = none ↔ UInt64.size - 2 ≤ slot := by
  by_cases hs : Token.base + slot < UInt64.size
  · simp only [Token.word?, if_pos hs, reduceCtorEq, false_iff]
    simp only [Token.base] at hs
    omega
  · simp only [Token.word?, if_neg hs, true_iff]
    simp only [Token.base] at hs
    omega

/-- no other token is without a word -/
theorem word?_eq_none {token : Token} :
    token.word? = none ↔ ∃ slot, token = .connection slot ∧ UInt64.size - 2 ≤ slot := by
  cases token with
  | listener | signals => simp [Token.word?]
  | connection slot => simp [word?_connection_eq_none]

/-! ## One request -/

/-- a token without a word is found out before anything is touched -/
theorem refuses_slotTooLarge {request : Request} {token : Token} (ht : request.token? = some token)
    (hword : token.word? = none) : n.Refuses request .slotTooLarge := by
  cases request with
  | register d t interest =>
    cases ht
    have hrefused : n.register d token interest = { state := n, value := .error .slotTooLarge } := by
      simp [register, hword]
    constructor <;> simp [answer, after, closings, hrefused, hword, Host.without]
  | reregister d t interest =>
    cases ht
    have hrefused : n.reregister d token interest = { state := n, value := .error .slotTooLarge } := by
      simp [reregister, hword]
    constructor <;> simp [answer, after, closings, hrefused, hword, Host.without]
  | deregister | close | call => cases ht

theorem register_outcome (n : Notifier) (d : Descriptor) {token : Token} {word : UInt64}
    (hword : token.word? = some word) (interest : Interest) :
    (∃ code, n.Refuses (.register d token interest) (.refused code)) ∨
      n.Grants (.register d token interest) ∧
        d ∉ (Host.without n.host.watches (n.closings (.register d token interest))).map (·.descriptor) := by
  have hclosings : n.closings (.register d token interest) = n.host.lost := by simp [closings, hword]
  have hlost := n.host.drops_elapse.watches
  rw [← hclosings] at hlost
  rcases n.host.elapse.watch_spec d word interest with ⟨code, hvalue, hs⟩ | ⟨hvalue, -, hwatches, -⟩
  · refine .inl ⟨code, ?_⟩
    constructor <;> simp [answer, after, register, hword, hvalue, hs.watches, hlost]
  · refine .inr ⟨?_, fun hm => ?_⟩
    · constructor <;>
        simp [answer, after, register, hword, hvalue, hwatches, hlost, Request.effect, Request.entries,
          Request.departures]
    · rw [← hlost] at hm
      obtain ⟨w, hw, he⟩ := List.mem_map.1 hm
      exact Host.not_mem_watches (Host.watch?_of_watch hvalue) w hw he

theorem reregister_outcome (n : Notifier) (d : Descriptor) {token : Token} {word : UInt64}
    (hword : token.word? = some word) (interest : Interest) :
    (∃ code, n.Refuses (.reregister d token interest) (.refused code)) ∨
      n.Grants (.reregister d token interest) := by
  have hclosings : n.closings (.reregister d token interest) = n.host.lost := by simp [closings, hword]
  have hlost := n.host.drops_elapse.watches
  rw [← hclosings] at hlost
  rcases n.host.elapse.rewatch_spec d word interest with ⟨code, hvalue, hs⟩ | ⟨hvalue, hwatches, -⟩
  · refine .inl ⟨code, ?_⟩
    constructor <;> simp [answer, after, reregister, hword, hvalue, hs.watches, hlost]
  · refine .inr ?_
    constructor <;>
      simp [answer, after, reregister, hword, hvalue, hwatches, hlost, Request.effect, Request.entries,
        Request.departures]

theorem deregister_outcome (n : Notifier) (d : Descriptor) :
    (∃ code, n.Refuses (.deregister d) (.refused code)) ∨
      n.Grants (.deregister d) ∧ d ∈ (Host.without n.host.watches n.host.lost).map (·.descriptor) := by
  have hlost := n.host.drops_elapse.watches
  rcases n.host.elapse.unwatch_cases d with ⟨code, he⟩ | ⟨hmem, he⟩
  · refine .inl ⟨code, ?_⟩
    constructor <;> simp [answer, after, deregister, he, closings, hlost, Except.mapError]
  · refine .inr ⟨?_, hlost ▸ hmem⟩
    constructor <;>
      simp [answer, after, deregister, he, closings, hlost, Except.mapError, Request.effect, Request.entries,
        Request.departures, Host.forget]

theorem close_outcome (n : Notifier) (d : Descriptor) (abrupt : Bool) : n.Grants (.close d abrupt) where
  answer := rfl
  watches := (n.host.drops_elapse.trans (n.host.elapse.drops_close d abrupt)).watches
  registrations := rfl
  deregistrations := rfl

theorem call_outcome (n : Notifier) (change : Host → Host) (keeps : ∀ h, (change h).watches = h.watches) :
    n.Grants (.call change keeps) where
  answer := rfl
  watches := (keeps _).trans n.host.drops_elapse.watches
  registrations := rfl
  deregistrations := rfl

/-- a request is refused for its token, refused by the host, or granted -/
theorem outcome (n : Notifier) (request : Request) :
    ((∃ token, request.token? = some token ∧ token.word? = none) ∧ n.Refuses request .slotTooLarge) ∨
      (∃ code, n.Refuses request (.refused code)) ∨ n.Grants request := by
  cases hword : request.token?.any (·.word?.isNone) with
  | true =>
    obtain ⟨token, ht, hnone⟩ := (Option.any_eq_true _ _).1 hword
    have hnone := Option.isNone_iff_eq_none.1 hnone
    exact .inl ⟨⟨token, ht, hnone⟩, refuses_slotTooLarge ht hnone⟩
  | false =>
    refine .inr ?_
    cases request with
    | register d token interest =>
      obtain ⟨word, hword⟩ : ∃ word, token.word? = some word := by
        simpa [Request.token?, Option.isSome_iff_exists] using hword
      exact (n.register_outcome d hword interest).imp_right And.left
    | reregister d token interest =>
      obtain ⟨word, hword⟩ : ∃ word, token.word? = some word := by
        simpa [Request.token?, Option.isSome_iff_exists] using hword
      exact n.reregister_outcome d hword interest
    | deregister d => exact (n.deregister_outcome d).imp_right And.left
    | close d abrupt => exact .inr (n.close_outcome d abrupt)
    | call change keeps => exact .inr (n.call_outcome change keeps)

/-- what a request is answered with tells which of the three it was -/
theorem Refuses.of_answer {request : Request} {fault : WatchFault} (ha : n.answer request = .error fault) :
    n.Refuses request fault ∧
      (fault = .slotTooLarge → ∃ token, request.token? = some token ∧ token.word? = none) := by
  rcases n.outcome request with ⟨htoken, hr⟩ | ⟨code, hr⟩ | hg
  · cases hr.answer.symm.trans ha
    exact ⟨hr, fun _ => htoken⟩
  · cases hr.answer.symm.trans ha
    exact ⟨hr, fun he => by cases he⟩
  · cases hg.answer.symm.trans ha

theorem Grants.of_answer {request : Request} (ha : n.answer request = .ok ()) : n.Grants request := by
  rcases n.outcome request with ⟨-, hr⟩ | ⟨code, hr⟩ | hg
  · cases hr.answer.symm.trans ha
  · cases hr.answer.symm.trans ha
  · exact hg

/-! ## The run -/

/-- no descriptor is watched twice, and every registration is one that was taken back, one that is watched, or one
whose descriptor was closed -/
structure Balanced (n : Notifier) (vanished : List Descriptor) : Prop where
  once : (n.host.watches.map (·.descriptor)).Nodup
  ledger : n.registrations = n.deregistrations + n.host.watches.length + vanished.length

/-- what is closed with a request was watched before it -/
theorem closings_drop (n : Notifier) (request : Request) : ∃ h, Host.Drops (n.closings request) n.host h := by
  have hlost := n.host.drops_elapse
  have hworded : ∀ token : Token, ∃ h, Host.Drops (if token.word?.isSome then n.host.lost else []) n.host h := by
    intro token
    split
    · exact ⟨_, hlost⟩
    · exact ⟨n.host, Host.drops_of_watches rfl⟩
  cases request with
  | register d token interest => exact hworded token
  | reregister d token interest => exact hworded token
  | deregister d => exact ⟨_, hlost⟩
  | close d abrupt => exact ⟨_, hlost.trans (n.host.elapse.drops_close d abrupt)⟩
  | call change keeps => exact ⟨_, hlost⟩

/-- the watch changes in length by what is counted -/
theorem Grants.balanced {request : Request} {vanished : List Descriptor} (hb : n.Balanced vanished)
    (hg : n.Grants request) (honce : ((n.after request).host.watches.map (·.descriptor)).Nodup)
    (hlength : (n.after request).host.watches.length + request.departures =
      (Host.without n.host.watches (n.closings request)).length + request.entries) :
    (n.after request).Balanced (vanished ++ n.closings request) := by
  obtain ⟨h, hdrops⟩ := n.closings_drop request
  have hbefore := hdrops.length hb.once
  have hledger := hb.ledger
  rw [hdrops.watches] at hbefore
  refine ⟨honce, ?_⟩
  rw [hg.registrations, hg.deregistrations, List.length_append]
  omega

theorem Refuses.balanced {request : Request} {fault : WatchFault} {vanished : List Descriptor}
    (hb : n.Balanced vanished) (hr : n.Refuses request fault) :
    (n.after request).Balanced (vanished ++ n.closings request) := by
  obtain ⟨h, hdrops⟩ := n.closings_drop request
  have hbefore := hdrops.length hb.once
  have honce := hdrops.nodup hb.once
  have hledger := hb.ledger
  rw [hdrops.watches] at hbefore honce
  refine ⟨hr.watches ▸ honce, ?_⟩
  rw [hr.registrations, hr.deregistrations, hr.watches, List.length_append]
  omega

/-- what is still watched after closings is watched once -/
theorem Balanced.once_without {vanished : List Descriptor} (hb : n.Balanced vanished) (request : Request) :
    ((Host.without n.host.watches (n.closings request)).map (·.descriptor)).Nodup :=
  hb.once.sublist (List.filter_sublist.map _)

theorem Balanced.after {vanished : List Descriptor} (hb : n.Balanced vanished) (request : Request) :
    (n.after request).Balanced (vanished ++ n.closings request) := by
  have honce := hb.once_without request
  cases request with
  | register d token interest =>
    cases hword : token.word? with
    | none => exact (refuses_slotTooLarge rfl hword).balanced hb
    | some word =>
      rcases n.register_outcome d hword interest with ⟨code, hr⟩ | ⟨hg, hfresh⟩
      · exact hr.balanced hb
      · have hwatches := hg.watches
        simp only [Request.effect, hword, Option.map_some, Option.toList_some] at hwatches
        refine hg.balanced hb ?_ (by simp [hwatches, Request.entries, Request.departures])
        rw [hwatches, List.map_append, List.map_singleton]
        refine List.nodup_append.2 ⟨honce, by simp, fun x hx y hy he => ?_⟩
        rw [he, List.mem_singleton.1 hy] at hx
        exact hfresh hx
  | reregister d token interest =>
    cases hword : token.word? with
    | none => exact (refuses_slotTooLarge rfl hword).balanced hb
    | some word =>
      rcases n.reregister_outcome d hword interest with ⟨code, hr⟩ | hg
      · exact hr.balanced hb
      · have hwatches := hg.watches
        simp only [Request.effect, hword, Option.map_some, Option.getD_some] at hwatches
        have hsame := Host.map_rewatched
          (Host.without n.host.watches (n.closings (.reregister d token interest))) d word interest
        refine hg.balanced hb (by rwa [hwatches, hsame]) ?_
        rw [hwatches]
        simpa [Request.entries, Request.departures] using congrArg List.length hsame
  | deregister d =>
    rcases n.deregister_outcome d with ⟨code, hr⟩ | ⟨hg, hmem⟩
    · exact hr.balanced hb
    · refine hg.balanced hb ?_ ?_
      · rw [hg.watches]
        exact honce.sublist (List.filter_sublist.map _)
      · obtain ⟨w, hw, rfl⟩ := List.mem_map.1 hmem
        have hperm := List.perm_cons_erase hw
        have hleft := (Connections.perm_filter_ne hperm honce).length_eq
        have hall := hperm.length_eq
        rw [hg.watches]
        simp only [closings, Request.effect, Request.entries, Request.departures, List.length_cons] at *
        omega
  | close d abrupt =>
    have hg := n.close_outcome d abrupt
    exact hg.balanced hb (hg.watches ▸ honce) (by rw [hg.watches]; rfl)
  | call change keeps =>
    have hg := n.call_outcome change keeps
    exact hg.balanced hb (hg.watches ▸ honce) (by rw [hg.watches]; rfl)

theorem Balanced.foldl {vanished : List Descriptor} (hb : n.Balanced vanished) (requests : List Request) :
    (requests.foldl Notifier.after n).Balanced (vanished ++ n.vanishings requests) := by
  induction requests generalizing n vanished with
  | nil => simpa [vanishings] using hb
  | cons request rest ih =>
    rw [List.foldl_cons, vanishings, ← List.append_assoc]
    exact ih (hb.after request)

/-- the ledger of a notifier is exact, and what its next request will be answered with tells what that does -/
structure Exact (n : Notifier) (vanished : List Descriptor) : Prop where
  /-- no descriptor is watched twice, and the ledger's difference counts those that are watched and those whose watch
  vanished with them -/
  balanced : n.Balanced vanished
  /-- a slot without a word is refused before the host is asked, and no other token is -/
  overflow : ∀ request, n.answer request = .error .slotTooLarge ↔
    ∃ slot, request.token? = some (.connection slot) ∧ UInt64.size - 2 ≤ slot
  /-- a refusal changes neither the watch nor the counts -/
  refused : ∀ {request fault}, n.answer request = .error fault → n.Refuses request fault
  granted : ∀ {request}, n.answer request = .ok () → n.Grants request

theorem Balanced.exact {vanished : List Descriptor} (hb : n.Balanced vanished) : n.Exact vanished where
  balanced := hb
  overflow request := by
    constructor
    · intro ha
      obtain ⟨token, ht, hnone⟩ := (Refuses.of_answer ha).2 rfl
      obtain ⟨slot, rfl, hslot⟩ := word?_eq_none.1 hnone
      exact ⟨slot, ht, hslot⟩
    · rintro ⟨slot, ht, hslot⟩
      exact (refuses_slotTooLarge ht (word?_connection_eq_none.2 hslot)).answer
  refused ha := (Refuses.of_answer ha).1
  granted ha := .of_answer ha

/-- **The ledger is exact and failures change nothing.** A notifier was made over a host that watches nothing yet, and
any requests were made of it, in any order, on any descriptors and under any tokens, while clients closed what they
liked. Then registrations exceed deregistrations by the watched descriptors and those whose watch was lost by closing;
whatever request comes next either is refused, and then the watch is what closings leave of it and neither count
changes, or has just the effect that it is for; and it is refused for its token exactly if that is a slot beyond the
last word, with the host not even asked. -/
theorem ledger_exact {host : Host} (hh : host.watches = []) (requests : List Request) :
    (requests.foldl after { host }).Exact (vanishings { host } requests) := by
  have hfirst : Balanced { host } [] := ⟨by simp [hh], by simp [hh]⟩
  have hlast := hfirst.foldl requests
  exact hlast.exact

end Notifier

/-! ## A ledger to look at -/

namespace Sample

/-- a stream, a file and a counter; the client closes its end before the ninth call -/
def cluttered : Host where
  streams := [{ family := .inet }]
  devices := [some (.stream 0 .near), some (.stream 0 .far), some .file, some .counter]
  others := List.replicate 8 [] ++ [[.close 0 false]]

/-- every way to fail, a change of token, and the two ways to lose a watch by closing -/
def errands : List Notifier.Request :=
  [.register 1 (.connection 0) .reading, .register 1 (.connection 3) .reading,
    .register 2 (.connection 1) .reading, .register 9 (.connection 1) .reading,
    .register 3 (.connection (UInt64.size - 2)) .reading, .reregister 1 (.connection 7) .readingAndWriting,
    .deregister 3, .register 0 .signals .reading, .register 3 .listener .reading, .deregister 3,
    .close 1 false, .deregister 1, .register 3 (.connection (UInt64.size - 3)) .reading]

end Sample

namespace Notifier

/-- four were registered: one was taken back, both ends of the stream were closed, and the counter is watched again -/
theorem ledger_exact_cluttered :
    (Sample.errands.foldl after { host := Sample.cluttered }).Exact [0, 1] ∧
      (Sample.errands.foldl after { host := Sample.cluttered }).registrations = 4 ∧
      (Sample.errands.foldl after { host := Sample.cluttered }).deregistrations = 1 ∧
      (Sample.errands.foldl after { host := Sample.cluttered }).host.watches =
        [⟨3, 0xFFFFFFFFFFFFFFFF, .reading⟩] := by
  have hlost : vanishings { host := Sample.cluttered } Sample.errands = [0, 1] := by decide +kernel
  exact ⟨hlost ▸ ledger_exact (show Sample.cluttered.watches = [] from rfl) Sample.errands, by decide +kernel⟩

end Notifier

end EventServer
