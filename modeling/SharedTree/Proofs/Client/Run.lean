import Mathlib.Data.List.Induction
import Mathlib.Logic.Relation
import SharedTree.Proofs.Client.Tidy

/-!
# Runs of a client

A run is any sequence of steps that starts from a client that has just connected. Its log keeps
each step together with the client that took it. What a client does in one go, `Client.settle`,
`Client.receive` and `Client.pass`, continues a run by a sequence of steps.
-/

namespace SharedTree

/-- A step of a client, with the client before it. -/
structure ClientOccurrence where
  before : Client
  step : ClientStep

/-- The client after the step. -/
def ClientOccurrence.after (occurrence : ClientOccurrence) : Client :=
  occurrence.before.step occurrence.step

/-- The runs that start from a client that has just connected, with their logs. -/
inductive ClientRuns (config : ClientConfig) : List ClientOccurrence → Client → Prop where
  | new : ClientRuns config [] (.new config)
  | next {log : List ClientOccurrence} {client : Client} (before : ClientRuns config log client)
      (step : ClientStep) : ClientRuns config (log ++ [⟨client, step⟩]) (client.step step)

/-- Steps that begin nothing and lose no frame lead from one client to another. -/
def Client.Leads : Client → Client → Prop :=
  Relation.ReflTransGen fun before after =>
    ∃ step : ClientStep, step.Continues ∧ before.step step = after

namespace ClientRuns

variable {config : ClientConfig} {log earlier later : List ClientOccurrence}
  {made : ClientOccurrence} {client last : Client}

theorem of_concat (run : ClientRuns config (log ++ [made]) client) :
    ClientRuns config log made.before ∧ client = made.after := by
  generalize whole : log ++ [made] = full at run
  cases run with
  | new => simp at whole
  | next before step =>
      rcases List.append_inj' whole rfl with ⟨rfl, same⟩
      cases same
      exact ⟨before, rfl⟩

theorem of_append (run : ClientRuns config (earlier ++ later) client) :
    ∃ first, ClientRuns config earlier first := by
  induction later using List.reverseRecOn generalizing client with
  | nil => exact ⟨client, by rwa [List.append_nil] at run⟩
  | append_singleton rest made ih =>
      rw [← List.append_assoc] at run
      exact ih run.of_concat.1

theorem before_made (run : ClientRuns config (earlier ++ made :: later) client) :
    ClientRuns config earlier made.before := by
  rw [List.append_cons] at run
  rcases run.of_append with ⟨first, untilMade⟩
  exact untilMade.of_concat.1

theorem leads (run : ClientRuns config log client) (leads : client.Leads last) :
    ∃ more, ClientRuns config (log ++ more) last := by
  induction leads with
  | refl => exact ⟨[], by rwa [List.append_nil]⟩
  | tail _ stepped ih =>
      rcases ih with ⟨more, before⟩
      rcases stepped with ⟨step, _, rfl⟩
      exact ⟨more ++ [⟨_, step⟩], by
        rw [← List.append_assoc]
        exact before.next step⟩

end ClientRuns

namespace Client

variable {client : Client}

theorem leads_step (client : Client) {step : ClientStep} (continues : step.Continues) :
    client.Leads (client.step step) :=
  .single ⟨step, continues, rfl⟩

theorem Leads.trans {first middle last : Client} (one : first.Leads middle)
    (other : middle.Leads last) : first.Leads last :=
  Relation.ReflTransGen.trans one other

/-! ## Settling -/

/-- A step for each of some numbers. -/
theorem leads_foldl (step : Nat → ClientStep) (continues : ∀ number, (step number).Continues)
    (client : Client) (numbers : List Nat) :
    client.Leads (numbers.foldl (fun client number => client.step (step number)) client) := by
  induction numbers generalizing client with
  | nil => exact .refl
  | cons number rest ih => exact .head ⟨step number, continues number, rfl⟩ (ih _)

theorem leads_flush (client : Client) : client.Leads client.flush :=
  leads_foldl .written (fun _ => trivial) client client.outgoing.keys

theorem leads_resume (client : Client) : client.Leads client.resume :=
  leads_foldl .resumed (fun _ => trivial) client client.decided.keys

theorem leads_expire (client : Client) : client.Leads client.expire :=
  leads_foldl .expired (fun _ => trivial) client client.requests.keys

theorem leads_settle (client : Client) : client.Leads client.settle :=
  ((leads_flush client).trans (leads_resume _)).trans (leads_expire _)

/-! ## Receiving and passing time -/

theorem reading_dispatch (client : Client) (frame : Frame) :
    (client.dispatch frame).reading = client.reading := by
  unfold dispatch
  split
  · rfl
  · split
    · exact (noteUnsolicited_spec client _).1.reading
    · split
      · rfl
      · rfl

theorem leads_dispatchAll (client : Client) (events : List AssemblerEvent)
    (reads : client.reading = true) : client.Leads (client.dispatchAll events) := by
  induction events generalizing client with
  | nil => exact .refl
  | cons event rest ih =>
      cases event with
      | completed frame =>
          have stillReads := (reading_dispatch client frame).trans reads
          refine .head ⟨.arrived frame, trivial, ?_⟩ (ih (client.dispatch frame) stillReads)
          simp [step, reads]
      | gaveUp error => exact ih client reads

theorem leads_receive (client : Client) (bytes : Bytes) : client.Leads (client.receive bytes) := by
  unfold receive
  split
  · exact leads_settle client
  · next delivered =>
    have reads : client.reading = true := by
      cases reads : client.reading
      · simp [reads] at delivered
      · rfl
    have read : client.Leads
        (client.step (.read (client.assembler.accept bytes).1 client.now)) :=
      leads_step client trivial
    have dispatched := leads_dispatchAll
      (client.step (.read (client.assembler.accept bytes).1 client.now))
      (client.assembler.accept bytes).2 reads
    exact (read.trans dispatched).trans (leads_settle _)

theorem leads_pass (client : Client) (milliseconds : Nat) :
    client.Leads (client.pass milliseconds) :=
  have waited : client.Leads (client.step (.waited milliseconds)) := leads_step client trivial
  have read : (client.step (.waited milliseconds)).Leads
      ((client.step (.waited milliseconds)).step (.read _ _)) := leads_step _ trivial
  (waited.trans read).trans (leads_settle _)

end Client

end SharedTree
