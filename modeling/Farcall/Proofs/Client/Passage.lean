import Farcall.Proofs.Client.Awaiting

set_option autoImplicit false

/-!
# Passages

A message of a host need not come as a whole buffer. It may be read from a stream, which breaks where
it likes, and which may fail to close once it was read. A passage is all that can happen at a desk
where messages come in either form: moves and arrivals in any order, from where the desk stands.
-/

namespace Farcall

def Link.hear (link : Link) (registry : Registry) (input : Input) : Link.Pumped :=
  let after := link.association.process registry input
  ⟨{ link with association := after.association }, after.registry, after.events.reverse⟩

inductive Incident where
  | move (move : Move)
  | arrives (receiver : ReceiverId) (input : Input)

namespace Desk

def meet (desk : Desk) : Incident → Desk
  | .move move => (desk.act move).2
  | .arrives receiver input =>
    { desk with
      client := desk.client.onLink receiver fun link registry => link.hear registry input }

def Admits (desk : Desk) : Incident → Prop
  | .move move => desk.Allowed move
  | .arrives _ _ => True

end Desk

structure Scene where
  before : Desk
  incident : Incident

namespace Scene

def after (scene : Scene) : Desk := scene.before.meet scene.incident

/-- The scene ends a task: the task is aborted, or a look at it is the last one. -/
def Ends (scene : Scene) (number : Nat) : Prop :=
  scene.incident = .move (.abort number) ∨
    scene.incident = .move (.look number) ∧
      ∃ outcome, (scene.before.act (.look number)).1 = some (.ended outcome)

end Scene

/-- The passages from a desk: the scenes, first one first, and the desk at the end. -/
inductive Passage (start : Desk) : List Scene → Desk → Prop
  | stay : Passage start [] start
  | next {scenes : List Scene} {desk : Desk} {incident : Incident}
      (passage : Passage start scenes desk) (admits : desk.Admits incident) :
      Passage start (scenes ++ [⟨desk, incident⟩]) (desk.meet incident)

theorem Course.passage {config : Config} {turns : List Turn} {desk : Desk}
    (course : Course config turns desk) :
    Passage ⟨.ofConfig config, []⟩ (turns.map fun turn => ⟨turn.before, .move turn.move⟩) desk := by
  induction course with
  | start => exact .stay
  | turn course allowed ih =>
    rw [List.map_append]
    exact ih.next allowed

namespace Desk

variable {desk : Desk} {incident : Incident} {task : Task}

/-! ## Order -/

theorem Ordered.follows_meet (ordered : desk.Ordered) (admits : desk.Admits incident) :
    Follows (fun _ => True) desk.client (desk.meet incident) := by
  cases incident with
  | move move =>
    have follows := ordered.follows_act admits
    exact ⟨follows.ordered, follows.grows.mono fun _ _ => trivial⟩
  | arrives receiver input =>
    exact ordered.follows_onLink receiver fun link _ fits => fits.process desk.client.registry input

theorem Ordered.mem_of_meet (ordered : desk.Ordered) (admits : desk.Admits incident)
    (old : task.number < desk.client.nextTask) (mem : task ∈ (desk.meet incident).client.tasks) :
    task ∈ desk.client.tasks :=
  (ordered.follows_meet admits).grows.tasks task mem old

theorem Ordered.mem_tasks_look_own (ordered : desk.Ordered) (mem : task ∈ desk.client.tasks)
    (goesOn : ∀ outcome, (desk.act (.look task.number)).1 ≠ some (.ended outcome)) :
    task ∈ (desk.act (.look task.number)).2.client.tasks := by
  have found := ordered.find_of_mem mem
  have kept : (desk.client.look task.work task.deadline).2.tasks = desk.client.tasks :=
    (desk.client.look_at task.work _).tasks
  change ∀ outcome, (desk.look task.number).1 ≠ _ at goesOn
  change task ∈ (desk.look task.number).2.client.tasks
  cases looked : desk.client.look task.work task.deadline with
  | mk result after =>
    rw [looked] at kept
    cases result with
    | none =>
      rw [look_of_waits found looked, kept]
      exact mem
    | some outcome =>
      rw [look_of_ended found looked] at goesOn
      exact absurd rfl (goesOn outcome)

theorem Ordered.mem_tasks_meet (ordered : desk.Ordered) (mem : task ∈ desk.client.tasks)
    (lasts : ¬ Scene.Ends ⟨desk, incident⟩ task.number) :
    task ∈ (desk.meet incident).client.tasks := by
  cases incident with
  | move move =>
    by_cases looks : move = .look task.number
    · subst looks
      exact ordered.mem_tasks_look_own mem fun outcome ended => lasts (.inr ⟨rfl, outcome, ended⟩)
    · refine mem_tasks_act mem ⟨looks, ?_⟩
      rintro rfl
      exact lasts (.inl rfl)
  | arrives receiver input =>
    rcases desk.client.onLink_cases receiver fun link registry => link.hear registry input with
      ⟨-, same⟩ | ⟨link, -, at_receiver, -⟩
    · rw [meet, same]
      exact mem
    · rw [meet, at_receiver.tasks]
      exact mem

end Desk

namespace Passage

variable {start desk : Desk} {scenes : List Scene} {task : Task}

theorem ordered (passage : Passage start scenes desk) (ordered : start.Ordered) : desk.Ordered := by
  induction passage with
  | stay => exact ordered
  | next passage admits ih => exact (ih.follows_meet admits).ordered

theorem grows (passage : Passage start scenes desk) (ordered : start.Ordered) :
    Client.Grows (fun _ => True) start.client desk.client := by
  induction passage with
  | stay => exact .refl _ _
  | next passage admits ih =>
    exact ih.trans ((passage.ordered ordered).follows_meet admits).grows

theorem mem_tasks (passage : Passage start scenes desk) (ordered : start.Ordered)
    (mem : task ∈ start.client.tasks) (lasts : ∀ scene ∈ scenes, ¬ scene.Ends task.number) :
    task ∈ desk.client.tasks := by
  induction passage with
  | stay => exact mem
  | next passage admits ih =>
    have before := ih fun scene found => lasts scene (List.mem_append_left _ found)
    exact (passage.ordered ordered).mem_tasks_meet before (lasts _ (by simp))

theorem find_task (passage : Passage start scenes desk) (ordered : start.Ordered)
    (mem : task ∈ start.client.tasks) :
    (desk.client.tasks.find? (·.number = task.number) = none ∧
        ∃ scene ∈ scenes, scene.Ends task.number) ∨
      desk.client.tasks.find? (·.number = task.number) = some task := by
  rcases (passage.grows ordered).find_task ordered.numbered mem with gone | found
  · refine .inl ⟨gone, ?_⟩
    by_contra none
    have there := passage.mem_tasks ordered mem fun scene found ends => none ⟨scene, found, ends⟩
    rw [(passage.ordered ordered).find_of_mem there] at gone
    cases gone
  · exact .inr found

end Passage

end Farcall
