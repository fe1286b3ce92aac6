import TableBrowser.Paging.Run

/-!
# Waiting tickets

As long as no label is used twice, the ticket of a label stands at one place of
the waiting tickets, and taking it away leaves what is before and behind it.
-/

namespace TableBrowser.Paging.Run

variable {run : Run} {label : Text} {ticket : Ticket}

/-- No two tickets wait under one label. -/
def LabelsDistinct (run : Run) : Prop :=
  (run.waiting.map (·.1)).Nodup

/-- The waiting tickets of the current epoch, whose replies still count. -/
def live (run : Run) : List Ticket :=
  (run.waiting.map (·.2)).filter fun ticket => ticket.request.epoch == run.state.epoch

theorem mem_live : ticket ∈ run.live ↔
    (∃ label, (label, ticket) ∈ run.waiting) ∧ ticket.request.epoch = run.state.epoch := by
  simp [live]

theorem others_eq_of_ticket?_none (hnone : run.ticket? label = none) :
    run.others label = run.waiting := by
  simp only [ticket?, Option.map_eq_none_iff, List.find?_eq_none] at hnone
  apply List.filter_eq_self.mpr
  intro entry hentry
  simpa using hnone entry hentry

theorem mem_others {entry : Text × Ticket} :
    entry ∈ run.others label ↔ entry ∈ run.waiting ∧ entry.1 ≠ label := by
  simp [others]

theorem mem_waiting_of_ticket? (hticket : run.ticket? label = some ticket) :
    (label, ticket) ∈ run.waiting := by
  simp only [ticket?, Option.map_eq_some_iff] at hticket
  obtain ⟨⟨name, _⟩, hfind, rfl⟩ := hticket
  have hname : name = label := by simpa using List.find?_some hfind
  rw [← hname]
  exact List.mem_of_find?_eq_some hfind

theorem LabelsDistinct.split (hlabels : run.LabelsDistinct)
    (hmem : (label, ticket) ∈ run.waiting) :
    ∃ front back, run.waiting = front ++ (label, ticket) :: back ∧
      run.others label = front ++ back ∧ run.ticket? label = some ticket := by
  obtain ⟨front, back, hwaiting⟩ := List.append_of_mem hmem
  rw [LabelsDistinct, hwaiting, List.map_append, List.map_cons,
    List.nodup_append, List.nodup_cons] at hlabels
  obtain ⟨-, ⟨hbackLabels, -⟩, hfrontLabels⟩ := hlabels
  have hfront : ∀ entry ∈ front, entry.1 ≠ label := by
    intro entry hentry
    exact hfrontLabels entry.1 (List.mem_map_of_mem hentry) label (List.mem_cons_self)
  have hback : ∀ entry ∈ back, entry.1 ≠ label := by
    intro entry hentry hlabel
    exact hbackLabels (List.mem_map.mpr ⟨entry, hentry, hlabel⟩)
  refine ⟨front, back, hwaiting, ?_, ?_⟩
  · rw [others, hwaiting, List.filter_append,
      List.filter_eq_self.mpr (by simpa using hfront),
      List.filter_cons_of_neg (by simp), List.filter_eq_self.mpr (by simpa using hback)]
  · have hnone : front.find? (fun entry => entry.1 == label) = none :=
      List.find?_eq_none.mpr (by simpa using hfront)
    simp [ticket?, hwaiting, List.find?_append, hnone]

theorem LabelsDistinct.ticket?_eq_some_iff (hlabels : run.LabelsDistinct) :
    run.ticket? label = some ticket ↔ (label, ticket) ∈ run.waiting := by
  constructor
  · exact mem_waiting_of_ticket?
  · intro hmem
    obtain ⟨_, _, _, _, hticket⟩ := hlabels.split hmem
    exact hticket

theorem LabelsDistinct.ticket_unique (hlabels : run.LabelsDistinct)
    (hmem : (label, ticket) ∈ run.waiting) {other : Ticket}
    (hother : (label, other) ∈ run.waiting) : other = ticket := by
  rw [← hlabels.ticket?_eq_some_iff] at hmem hother
  rw [hmem, Option.some.injEq] at hother
  exact hother.symm

theorem LabelsDistinct.others (hlabels : run.LabelsDistinct) (label : Text) :
    ((run.others label).map (·.1)).Nodup :=
  List.Nodup.sublist (List.Sublist.map _ List.filter_sublist) hlabels

theorem LabelsDistinct.others_concat (hlabels : run.LabelsDistinct) (label : Text)
    (ticket : Ticket) : ((run.others label ++ [(label, ticket)]).map (·.1)).Nodup := by
  rw [List.map_append, List.nodup_append]
  refine ⟨hlabels.others label, by simp, ?_⟩
  intro name hname other hother
  obtain ⟨entry, hentry, rfl⟩ := List.mem_map.mp hname
  rw [List.map_singleton, List.mem_singleton] at hother
  exact hother ▸ (mem_others.mp hentry).2

end TableBrowser.Paging.Run
