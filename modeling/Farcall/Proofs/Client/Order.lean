import Farcall.Proofs.Client.Course
import Farcall.Proofs.Client.Elsewhere
import Farcall.Proofs.Client.Places
import Farcall.Proofs.Correlation.Stretches

set_option autoImplicit false

/-!
# The order of a client

Behind every course the table of each link comes from a run, every slot of it is in one place, and
tasks and receivers have numbers of their own. A turn works at one receiver at most, and there from
one place.
-/

namespace Farcall

/-! ## What is done at a link -/

namespace Site

theorem Looked.stretch {work : Work} {link behind : Link} {result : Option Outcome}
    (looked : Looked work link result behind) :
    Table.Stretch Op.Mute link.association.table behind.association.table := by
  obtain ⟨table, works, rfl⟩ := looked.works
  exact works.stretch

theorem stretch_enter {table after : Table LazyResult} {id : UInt16}
    (registered : table.register.1 = .ok (table.enter id).1)
    (works : Table.Works (table.enter id).1 (table.enter id).2 after) :
    Table.Stretch Op.Mute table after := by
  have entered : Table.Stretch Op.Mute table (table.perform .register).2 := .single rfl trivial
  rw [Table.perform, (Table.register_of_ok registered).1] at entered
  exact entered.trans works.stretch

theorem Begun.stretch {receiver : ReceiverId} {link behind : Link} {start : Start}
    (begun : Begun receiver link start behind) :
    Table.Stretch Op.Mute link.association.table behind.association.table := by
  cases begun with
  | refused fails => exact .refl
  | withdrawn registered works gone fails => exact stretch_enter registered works
  | left registered works goesOn leaves => exact stretch_enter registered works
  | running registered works here own held => exact stretch_enter registered works

theorem Claimed.stretch {future : Future} {link behind : Link} {start : Start}
    (claimed : Claimed future link start behind) :
    Table.Stretch Op.Mute link.association.table behind.association.table := by
  cases claimed with
  | refused gone => exact .refl
  | running works held => exact works.stretch

end Site

namespace Client

variable {client before after : Client} {receiver : ReceiverId}

/-! ## Work at one receiver -/

/-- Nothing happened but at one receiver, and it has a link now if it had one before. -/
structure At (receiver : ReceiverId) (before after : Client) : Prop where
  elsewhere : ∀ other, other ≠ receiver → after.link? other = before.link? other
  linked : (after.link? receiver).isSome = (before.link? receiver).isSome
  tasks : after.tasks = before.tasks
  nextTask : after.nextTask = before.nextTask
  numbers : after.directory.nextNumber = before.directory.nextNumber
  known : ∀ n : Nat, (after.endpoints[n]?).isSome = (before.endpoints[n]?).isSome

theorem At.refl (receiver : ReceiverId) (client : Client) : At receiver client client :=
  ⟨fun _ _ => rfl, rfl, rfl, rfl, rfl, fun _ => rfl⟩

theorem At.trans {between : Client} (h : At receiver before between)
    (h' : At receiver between after) : At receiver before after :=
  ⟨fun other apart => (h'.elsewhere other apart).trans (h.elsewhere other apart),
    h'.linked.trans h.linked, h'.tasks.trans h.tasks, h'.nextTask.trans h.nextTask,
    h'.numbers.trans h.numbers, fun n => (h'.known n).trans (h.known n)⟩

theorem endpoints_withEndpoint (client : Client) (receiver : ReceiverId) (endpoint : Endpoint)
    (n : Nat) : (client.withEndpoint receiver endpoint).endpoints[n]? =
      if receiver.number = n then some endpoint else client.endpoints[n]? := by
  simp [withEndpoint, Std.TreeMap.getElem?_insert]

theorem link_of_endpoints {endpoint : Endpoint}
    (same : ∀ n : Nat, after.endpoints[n]? =
      if receiver.number = n then some endpoint else before.endpoints[n]?) (other : ReceiverId) :
    after.link? other = if receiver = other then endpoint.link? else before.link? other := by
  unfold link? endpoint?
  rw [same]
  by_cases own : receiver = other
  · subst own
    rw [if_pos rfl, if_pos rfl]
    rfl
  · have apart : receiver.number ≠ other.number := by
      intro number
      cases receiver
      cases other
      exact own (congrArg ReceiverId.mk number)
    rw [if_neg apart, if_neg own]

theorem at_of_endpoints {endpoint old : Endpoint}
    (there : before.endpoint? receiver = some old)
    (same : ∀ n : Nat, after.endpoints[n]? =
      if receiver.number = n then some endpoint else before.endpoints[n]?)
    (linked : endpoint.link?.isSome = old.link?.isSome) (tasks : after.tasks = before.tasks)
    (nextTask : after.nextTask = before.nextTask)
    (numbers : after.directory.nextNumber = before.directory.nextNumber) :
    At receiver before after := by
  have links := link_of_endpoints same
  refine ⟨?_, ?_, tasks, nextTask, numbers, ?_⟩
  · intro other apart
    rw [links, if_neg (Ne.symm apart)]
  · rw [links, if_pos rfl, link?, there]
    exact linked
  · intro n
    rw [same]
    split
    · next own =>
      rw [← own]
      rw [endpoint?] at there
      rw [there]
      rfl
    · rfl

section visit

variable {α : Type} {dflt : α} {act : Site → α × Site}

theorem visit_of_absent (absent : client.endpoint? receiver = none) :
    client.visit receiver dflt act = (dflt, client) := by
  simp only [visit, absent]

theorem visit_of_there {endpoint : Endpoint} (there : client.endpoint? receiver = some endpoint) :
    client.visit receiver dflt act = ((act ⟨endpoint, client.journal, client.events⟩).1,
      { client.withEndpoint receiver (act ⟨endpoint, client.journal, client.events⟩).2.endpoint with
        journal := (act ⟨endpoint, client.journal, client.events⟩).2.journal
        events := (act ⟨endpoint, client.journal, client.events⟩).2.events }) := by
  simp only [visit, there]

theorem visit_at (keeps : ∀ (b : Bool) (site : Site), site.Linked b → (act site).2.Linked b) :
    At receiver client (client.visit receiver dflt act).2 := by
  cases there : client.endpoint? receiver with
  | none =>
    rw [visit_of_absent there]
    exact .refl receiver client
  | some endpoint =>
    rw [visit_of_there there]
    refine at_of_endpoints there (endpoints_withEndpoint client receiver _) ?_ rfl rfl rfl
    exact keeps _ ⟨endpoint, client.journal, client.events⟩ rfl

theorem visit_on {P : α → Link → Prop} {link : Link} (linked : client.link? receiver = some link)
    (spec : ∀ site : Site, site.On link → Site.Gives P (act site)) :
    ∃ behind, (client.visit receiver dflt act).2.link? receiver = some behind ∧
      P (client.visit receiver dflt act).1 behind := by
  obtain ⟨endpoint, there, on⟩ := Option.bind_eq_some_iff.mp linked
  obtain ⟨behind, put, given⟩ := spec ⟨endpoint, client.journal, client.events⟩ on
  have links := link_of_endpoints (endpoints_withEndpoint client receiver
    (act ⟨endpoint, client.journal, client.events⟩).2.endpoint) receiver
  rw [if_pos rfl] at links
  rw [visit_of_there there]
  exact ⟨behind, links.trans put, given⟩

end visit

structure Left (client : Client) (receiver : ReceiverId) (link : Link) (journal : Journal)
    (after : Client) : Prop where
  link : after.link? receiver = some link
  journal : after.journal = journal
  registry : after.registry = client.registry
  tasks : after.tasks = client.tasks
  now : after.now = client.now

theorem Left.trans {middle : Client} {link behind : Link} {noted last : Journal}
    (left : client.Left receiver link noted middle) (left' : middle.Left receiver behind last after) :
    client.Left receiver behind last after :=
  ⟨left'.link, left'.journal, left'.registry.trans left.registry, left'.tasks.trans left.tasks,
    left'.now.trans left.now⟩

theorem visit_left {α : Type} {endpoint : Endpoint} {link : Link} (dflt : α)
    (act : Site → α × Site) (there : client.endpoint? receiver = some endpoint)
    (on : (act ⟨endpoint, client.journal, client.events⟩).2.On link) :
    (client.visit receiver dflt act).1 = (act ⟨endpoint, client.journal, client.events⟩).1 ∧
      client.Left receiver link (act ⟨endpoint, client.journal, client.events⟩).2.journal
        (client.visit receiver dflt act).2 := by
  rw [visit_of_there there]
  refine ⟨rfl, ?_, rfl, rfl, rfl, rfl⟩
  have links := link_of_endpoints (endpoints_withEndpoint client receiver
    (act ⟨endpoint, client.journal, client.events⟩).2.endpoint) receiver
  rw [if_pos rfl] at links
  exact links.trans on

theorem visit_linked {α : Type} {link : Link} (dflt : α) (act : Site → α × Site)
    (linked : client.link? receiver = some link) :
    ∃ site : Site, site.On link ∧ site.journal = client.journal ∧
      (client.visit receiver dflt act).1 = (act site).1 ∧ ∀ after, (act site).2.On after →
        client.Left receiver after (act site).2.journal (client.visit receiver dflt act).2 := by
  obtain ⟨endpoint, there, on⟩ := Option.bind_eq_some_iff.mp linked
  refine ⟨⟨endpoint, client.journal, client.events⟩, on, rfl, ?_, ?_⟩
  · rw [visit_of_there there]
  · intro after behind
    exact (visit_left dflt act there behind).2

theorem look_linked {link : Link} (client : Client) (work : Work) (deadline : Nat)
    (linked : client.link? work.receiver = some link) :
    ∃ site : Site, site.On link ∧ site.journal = client.journal ∧
      (client.look work deadline).1 = (site.look work (decide (deadline ≤ client.now))).1 ∧
      ∀ after, (site.look work (decide (deadline ≤ client.now))).2.On after →
        client.Left work.receiver after
          (site.look work (decide (deadline ≤ client.now))).2.journal (client.look work deadline).2 :=
  visit_linked none (fun site => site.look work (decide (deadline ≤ client.now))) linked

/-- The table of every link fits the places, and no place is at a receiver that never joined. -/
structure Fit (client : Client) (places : List Place) : Prop where
  fits : ∀ receiver link, client.link? receiver = some link →
    Fits places receiver link.association.table
  known : ∀ place ∈ places, (client.endpoint? place.receiver).isSome

variable {places rest : List Place}

theorem Fit.perm {others : List Place} (fit : client.Fit places) (same : places.Perm others) :
    client.Fit others :=
  ⟨fun receiver link linked => (fit.fits receiver link linked).perm same,
    fun place mem => fit.known place (same.mem_iff.mpr mem)⟩

theorem Fit.tail {place : Place} (fit : client.Fit (place :: rest)) : client.Fit rest :=
  ⟨fun receiver link linked => (fit.fits receiver link linked).tail,
    fun place mem => fit.known place (List.mem_cons_of_mem _ mem)⟩

/-! ## From one client to another -/

def Leads (kind : Op LazyResult → Prop) (before after : Client) : Prop :=
  ∀ receiver link, before.link? receiver = some link → ∃ behind,
    after.link? receiver = some behind ∧
      Table.Stretch kind link.association.table behind.association.table

variable {kind : Op LazyResult → Prop}

theorem Leads.refl (kind : Op LazyResult → Prop) (client : Client) : Leads kind client client :=
  fun _ link linked => ⟨link, linked, .refl⟩

theorem Leads.trans {between : Client} (h : Leads kind before between)
    (h' : Leads kind between after) : Leads kind before after := by
  intro receiver link linked
  obtain ⟨middle, linked, first⟩ := h receiver link linked
  obtain ⟨behind, linked, second⟩ := h' receiver middle linked
  exact ⟨behind, linked, first.trans second⟩

theorem Leads.mono {other : Op LazyResult → Prop} (h : Leads kind before after)
    (wider : ∀ op, kind op → other op) : Leads other before after := by
  intro receiver link linked
  obtain ⟨behind, linked, stretch⟩ := h receiver link linked
  exact ⟨behind, linked, stretch.mono wider⟩

structure Arrives (kind : Op LazyResult → Prop) (before after : Client) (places : List Place) :
    Prop where
  fit : after.Fit places
  leads : Leads kind before after

theorem Fit.at {old new : List Place} (fit : before.Fit (old ++ rest))
    (at_receiver : At receiver before after) (there : (before.endpoint? receiver).isSome)
    (of : ∀ place ∈ new, place.receiver = receiver)
    (here : ∀ link, before.link? receiver = some link →
      Fits (old ++ rest) receiver link.association.table → ∃ behind,
        after.link? receiver = some behind ∧
        Table.Stretch kind link.association.table behind.association.table ∧
        Fits (new ++ rest) receiver behind.association.table) :
    Arrives kind before after (new ++ rest) := by
  refine ⟨⟨?_, ?_⟩, ?_⟩
  · intro other behind linked
    by_cases own : other = receiver
    · subst own
      have first := at_receiver.linked
      rw [linked, Option.isSome_some] at first
      obtain ⟨link, first⟩ := Option.isSome_iff_exists.mp first.symm
      obtain ⟨last, found, -, fits⟩ := here link first (fit.fits other link first)
      rw [found] at linked
      rwa [Option.some.inj linked] at fits
    · have same := at_receiver.elsewhere other own
      have fits := (fit.fits other behind (same ▸ linked)).of_append
      refine fits.of_others fun place mem elsewhere => own ?_
      rw [← elsewhere, of place mem]
  · intro place mem
    refine (at_receiver.known place.receiver.number).trans ?_
    rcases List.mem_append.mp mem with mem | mem
    · rw [of place mem]
      exact there
    · exact fit.known place (List.mem_append_right old mem)
  · intro other link linked
    by_cases own : other = receiver
    · subst own
      obtain ⟨behind, found, stretch, -⟩ := here link linked (fit.fits other link linked)
      exact ⟨behind, found, stretch⟩
    · exact ⟨link, (at_receiver.elsewhere other own).trans linked, .refl⟩

theorem Fit.keep (fit : before.Fit places) (at_receiver : At receiver before after)
    (there : (before.endpoint? receiver).isSome)
    (here : ∀ link, before.link? receiver = some link →
      Fits places receiver link.association.table → ∃ behind,
        after.link? receiver = some behind ∧
        Table.Stretch kind link.association.table behind.association.table ∧
        Fits places receiver behind.association.table) :
    Arrives kind before after places := by
  have own : before.Fit ([] ++ places) := fit
  have none : ∀ place ∈ ([] : List Place), place.receiver = receiver := List.forall_mem_nil _
  have kept : Arrives kind before after ([] ++ places) := own.at at_receiver there none here
  exact kept

/-! ## Looks -/

theorem look_at (client : Client) (work : Work) (deadline : Nat) :
    At work.receiver client (client.look work deadline).2 :=
  visit_at fun _ _ linked => Site.Linked.look linked work _

theorem left_of (client : Client) (work : Work) (deadline : Nat) :
    ∀ place ∈ work.left (client.look work deadline).1, place.receiver = work.receiver := by
  intro place mem
  cases ended : (client.look work deadline).1 with
  | none =>
    rw [ended] at mem
    rw [List.mem_singleton.mp mem]
    rfl
  | some outcome =>
    rw [ended] at mem
    unfold look at ended
    cases there : client.endpoint? work.receiver with
    | none =>
      rw [visit_of_absent there] at ended
      cases ended
    | some endpoint =>
      rw [visit_of_there there] at ended
      exact (Site.look_of ended).places place mem

theorem look_on {work : Work} {link : Link} (fits : Fits (work.place :: rest) work.receiver
      link.association.table) (linked : client.link? work.receiver = some link) (deadline : Nat) :
    ∃ behind, (client.look work deadline).2.link? work.receiver = some behind ∧
      Site.Looked work link (client.look work deadline).1 behind :=
  visit_on linked fun _ on =>
    Site.look_spec work on fits.sound (fits.stands work.place (List.mem_cons_self ..) rfl) _

theorem look_fit {work : Work} (fit : client.Fit (work.place :: rest)) (deadline : Nat) :
    Arrives Op.Mute client (client.look work deadline).2
      (work.left (client.look work deadline).1 ++ rest) := by
  have own : client.Fit ([work.place] ++ rest) := fit
  refine own.at (look_at client work deadline) (fit.known work.place (List.mem_cons_self ..))
    (left_of client work deadline) ?_
  intro link linked fits
  obtain ⟨behind, found, looked⟩ := look_on fits linked deadline
  exact ⟨behind, found, looked.stretch, fits.looked looked⟩

/-! ## Requests -/

inductive Asked (client : Client) : Start × Client → Prop where
  | nowhere {outcome : Outcome} (nobody : outcome.future? = none) (stops : ¬ outcome.GoesOn) :
      Asked client (.ended outcome, client)
  | somewhere {receiver : ReceiverId} {started : Start × Client}
      (at_receiver : At receiver client started.2) (there : (client.endpoint? receiver).isSome)
      (of : started.1.Of receiver)
      (begun : ∀ link, client.link? receiver = some link → link.association.table.Sound →
        ∃ behind, started.2.link? receiver = some behind ∧
          Site.Begun receiver link started.1 behind) :
      Asked client started

theorem asked_visit {act : Site → Start × Site} (e : InvocationError)
    (of : ∀ site, (act site).1.Of receiver)
    (keeps : ∀ (b : Bool) (site : Site), site.Linked b → (act site).2.Linked b)
    (spec : ∀ (site : Site) (link : Link), site.On link → link.association.table.Sound →
      Site.Gives (Site.Begun receiver link) (act site)) :
    Asked client (client.visit receiver (.ended (.failed e)) act) := by
  cases there : client.endpoint? receiver with
  | none =>
    rw [visit_of_absent there]
    exact .nowhere rfl id
  | some endpoint =>
    refine .somewhere (visit_at keeps) (by rw [there]; rfl) ?_ ?_
    · rw [visit_of_there there]
      exact of ⟨endpoint, client.journal, client.events⟩
    · intro link linked sound
      exact visit_on linked fun site on => spec site link on sound

theorem asked_startAt (client : Client) (module : ModuleId)
    {start : ReceiverId → Site → Start × Site}
    (of : ∀ receiver site, (start receiver site).1.Of receiver)
    (keeps : ∀ (receiver : ReceiverId) (b : Bool) (site : Site), site.Linked b →
      (start receiver site).2.Linked b)
    (spec : ∀ (receiver : ReceiverId) (site : Site) (link : Link), site.On link →
      link.association.table.Sound →
      Site.Gives (Site.Begun receiver link) (start receiver site)) :
    Asked client (client.startAt module start) := by
  unfold startAt
  split
  · exact .nowhere rfl id
  · next receiver found => exact asked_visit _ (of receiver) (keeps receiver) (spec receiver)

theorem asked_answer (client : Client) (result : CallResult) :
    Asked client (.ended (.ofResult result), client) := by
  cases result with
  | ok v => exact .nowhere rfl id
  | error e => exact .nowhere rfl id

theorem asked_start (client : Client) (request : Request) : Asked client (request.start client) := by
  cases request with
  | call proxy method arguments mode =>
    change Asked client (client.dispatch proxy method arguments mode)
    unfold dispatch
    split
    · exact asked_answer client _
    · exact asked_startAt client _ (fun _ site => Site.startCall_of site _ _ _)
        (fun _ _ _ linked => linked.startCall _ _ _)
        (fun _ _ _ on sound => Site.startCall_spec on sound _ _ _)
  | callAlone proxy method arguments =>
    change Asked client (dispatchAlone proxy method arguments, client)
    unfold dispatchAlone
    split
    · exact asked_answer client _
    · exact .nowhere rfl id
  | session module bean view =>
    exact asked_startAt client _ (fun _ site => Site.startSession_of site _ _ _ _ _ _)
      (fun _ _ _ linked => linked.startSession _ _ _ _ _ _)
      (fun _ _ _ on sound => Site.startSession_spec on sound _ _ _ _ _ _)
  | step receiver step onePhase transaction =>
    exact asked_visit _ (fun site => Site.startTransaction_of site _ _ _ _ _)
      (fun _ _ linked => linked.startTransaction _ _ _ _ _)
      (fun _ _ on sound => Site.startTransaction_spec on sound _ _ _ _ _)

theorem Asked.fit {started : Start × Client} (asked : Asked client started)
    (fit : client.Fit places) :
    Arrives Op.Mute client started.2 (started.1.places ++ places) := by
  cases asked with
  | nowhere nobody stops =>
    rw [Start.places, Outcome.places, nobody]
    exact ⟨fit, .refl _ client⟩
  | somewhere at_receiver there of begun =>
    have own : client.Fit ([] ++ places) := fit
    refine own.at at_receiver there of.places ?_
    intro link linked fits
    obtain ⟨behind, found, began⟩ := begun link linked fits.sound
    exact ⟨behind, found, began.stretch, Fits.begun fits began⟩

/-! ## Held calls -/

theorem claim_at (client : Client) (future : Future) (timeout : Nat) :
    At future.receiver client (client.claim future timeout).2 :=
  visit_at fun _ _ linked => linked.startClaim timeout future

theorem claim_of (client : Client) (future : Future) (timeout : Nat) :
    (client.claim future timeout).1.Of future.receiver := by
  unfold claim
  cases there : client.endpoint? future.receiver with
  | none =>
    rw [visit_of_absent there]
    exact Outcome.of_nobody _ rfl
  | some endpoint =>
    rw [visit_of_there there]
    exact Site.startClaim_of _ timeout future

theorem claim_fit {future : Future} (fit : client.Fit (future.place :: rest)) (timeout : Nat) :
    Arrives Op.Mute client (client.claim future timeout).2
      ((client.claim future timeout).1.places ++ rest) := by
  have own : client.Fit ([future.place] ++ rest) := fit
  refine own.at (claim_at client future timeout) (fit.known future.place (List.mem_cons_self ..))
    (claim_of client future timeout).places ?_
  intro link linked fits
  have idle := fits.stands future.place (List.mem_cons_self ..) rfl
  obtain ⟨behind, found, claimed⟩ := visit_on linked fun _ on => Site.startClaim_spec on idle.idle timeout
  exact ⟨behind, found, claimed.stretch, Fits.claimed fits claimed⟩

theorem visit_fit {place : Place} {act : Site → Unit × Site} (fit : client.Fit (place :: rest))
    (keeps : ∀ (b : Bool) (site : Site), site.Linked b → (act site).2.Linked b)
    (spec : ∀ (site : Site) (link : Link), site.On link → place.Stands link.association.table →
      ∃ table, (act site).2.Worked place.slot link table) :
    Arrives Op.Mute client (client.visit place.receiver () act).2 rest := by
  have own : client.Fit ([place] ++ rest) := fit
  have there := fit.known place (List.mem_cons_self ..)
  have none : ∀ other ∈ ([] : List Place), other.receiver = place.receiver := List.forall_mem_nil _
  have left : Arrives Op.Mute client (client.visit place.receiver () act).2 ([] ++ rest) := by
    refine own.at (visit_at keeps) there none ?_
    intro link linked fits
    have stands := fits.stands place (List.mem_cons_self ..) rfl
    have visited : ∃ behind, (client.visit place.receiver () act).2.link? place.receiver =
        some behind ∧ ∃ table, behind = link.withTable table ∧
          Table.Works place.slot link.association.table table := by
      refine visit_on (P := fun _ behind => ∃ table, behind = link.withTable table ∧
        Table.Works place.slot link.association.table table) linked fun site on => ?_
      obtain ⟨table, worked⟩ := spec site link on stands
      exact ⟨_, worked.on, table, rfl, worked.works⟩
    obtain ⟨behind, found, table, rfl, works⟩ := visited
    exact ⟨_, found, works.stretch, Fits.works fits works⟩
  exact left

theorem drop_at (client : Client) (future : Future) :
    At future.receiver client (client.dropHeld future) :=
  visit_at fun _ _ linked => linked.dropSlot future.slot

def stop (client : Client) (work : Work) : Client :=
  (client.visit work.receiver () fun site => ((), site.stop work)).2

theorem stop_at (client : Client) (work : Work) : At work.receiver client (client.stop work) :=
  visit_at fun _ _ linked => linked.stop work

theorem stop_fit {work : Work} (fit : client.Fit (work.place :: rest)) :
    Arrives Op.Mute client (client.stop work) rest :=
  visit_fit fit (fun _ _ linked => linked.stop work) fun _ _ on stands => Site.stop_spec work on stands

theorem drop_fit {future : Future} (fit : client.Fit (future.place :: rest)) :
    Arrives Op.Mute client (client.dropHeld future) rest :=
  visit_fit fit (fun _ _ linked => linked.dropSlot future.slot)
    fun _ _ on stands => ⟨_, (on.worked future.slot).dropSlot (Table.Kept.idle stands)⟩

end Client

end Farcall
