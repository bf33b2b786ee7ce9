import TaskRelay.Session.Basic

/-!
# What sessions reach

A session takes its relay only where steps lead, so what holds of all reachable states holds
whenever a user is answered. Main statement: `leads_serve`.
-/

namespace TaskRelay.Session

theorem leads_act (x : Session) (a : Action) : Leads x.relay (x.act a).relay := by
  unfold act
  split
  · next s h => exact (Leads.here.step h).trans (State.leads_settle patience s)
  · exact .here

theorem leads_wait (x : Session) (t : Ticket) : Leads x.relay (x.wait t).1.relay := by
  unfold wait
  split
  · exact leads_act x _
  · exact .here

theorem leads_withHandle (x : Session) (task : Nat) (use : Ticket → Session × Answer)
    (h : ∀ t, Leads x.relay (use t).1.relay) : Leads x.relay (x.withHandle task use).1.relay := by
  unfold withHandle
  split
  · exact .here
  · next t _ =>
    split
    · exact .here
    · exact h t

/-- Turns lead on if each of them does. -/
theorem leads_forEach {α β : Type} (turn : Session → α → Session × β)
    (h : ∀ x a, Leads x.relay (turn x a).1.relay) (x : Session) (as : List α) :
    Leads x.relay (x.forEach turn as).1.relay := by
  induction as generalizing x with
  | nil => exact .here
  | cons a rest ih => exact (h x a).trans (ih (turn x a).1)

theorem leads_burstItem (x : Session) (b : Burst) (thread turn : Nat) :
    Leads x.relay (x.burstItem b thread turn).1.relay := by
  have h := leads_act x (.submit thread b.entry (b.envelope thread turn))
  simp only [burstItem, submit]
  split
  · exact h
  · exact h.trans (leads_wait _ _)

theorem leads_burst (x : Session) (b : Burst) : Leads x.relay (x.burst b).1.relay :=
  leads_forEach _
    (fun y thread => leads_forEach _ (fun z turn => leads_burstItem z b thread turn) y _) x _

theorem leads_perform (x : Session) (q : Request) : Leads x.relay (x.perform q).1.relay := by
  cases q with
  | registry q =>
    simp only [perform]
    split
    · exact leads_act x _
    · exact .here
  | submit entry e =>
    have h := leads_act x (.submit 0 entry e)
    simp only [perform, submit]
    split
    · exact h
    · exact h
  | wait task => exact leads_withHandle x task _ (leads_wait x)
  | waitInside task => exact leads_withHandle x task _ fun _ => leads_act x _
  | inspect task => exact leads_withHandle x task _ fun _ => .here
  | forget task => exact leads_withHandle x task _ fun _ => leads_act x _
  | openGate g => exact leads_act x _
  | shutdown => exact leads_act x _
  | pools => exact .here
  | stats => exact .here
  | drop => exact leads_act x _
  | killHost => exact (leads_act x _).trans (leads_act _ _)
  | burst b => exact leads_burst x b

theorem leads_serve (x : Session) (qs : List Request) : Leads x.relay (x.serve qs).1.relay :=
  leads_forEach respond leads_perform x qs

theorem leads_finish (x : Session) : Leads x.relay x.finish.1.relay := leads_act x _

end TaskRelay.Session
