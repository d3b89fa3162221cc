import PeatGateway.Cdc.Collections
import PeatGateway.Mesh.Diffs

/-!
# The subjects of NATS messages

The subject of an event is glued from a prefix, the id of the application and the id of the
document, with dots.  Both ids may hold dots, so the parts cannot always be read off, and who
subscribes to the subjects of one formation may be sent the events of another.

## Main definitions

* `Produced` — the events the watcher and the broker make for a formation.
* `subjects` — the subjects of the events of a formation.
* `Extends` — an id goes on with a dot after another.
* `Shadows` — an event has the subject of another.

## Main results

* `subject_eq_iff` — when events are published on one subject.
* `mem_subjects` — the subjects of a formation.
* `subjects_tell_iff` — **subjects tell documents exactly if no application id extends the
  other**.
-/

namespace PeatGateway

open Text

/-! ### Events and subjects -/

/-- The event is made for the formation, by the watcher or by the broker. -/
def Produced (orgId appId : String) (event : CdcEvent) : Prop :=
  (∃ (F : Formation) (change : ChangeEvent) (now : SystemTime), F.key = (orgId, appId) ∧
    F.event? change now = some event) ∨
  ∃ (B : RemoteBroker) (orders : Orders) (old new : Snapshot) (timestampMs : UInt64),
    ∃ change ∈ B.publishCdcDiffs orders old new timestampMs,
      (B.mapping.orgId, B.mapping.appId) = (orgId, appId) ∧ change.event = event

/-- The subjects the events of the formation are published on. -/
def subjects (subjectPrefix orgId appId : String) : Set String :=
  {s | ∃ event, Produced orgId appId event ∧ (natsMessage subjectPrefix event).subject = s}

/-- The id goes on with a dot after the other. -/
def Extends (a a' : String) : Prop := ∃ x, a' = glue '.' a x

instance (a a' : String) : Decidable (Extends a a') := decidable_of_iff _ startsWith_glue_iff

/-- The events are of different documents, and have one subject: the application id of the second
goes on where that of the first ends. -/
def Shadows (event event' : CdcEvent) : Prop :=
  ∃ x, event'.appId = glue '.' event.appId x ∧ event.documentId = glue '.' x event'.documentId

/-! ### What is glued to a subject -/

section Subjects

variable {subjectPrefix orgId appId : String}

theorem subject_eq (subjectPrefix : String) (event : CdcEvent) :
    (natsMessage subjectPrefix event).subject =
      glue '.' subjectPrefix (glue '.' event.appId event.documentId) := by
  have hsubject : (natsMessage subjectPrefix event).subject =
      subjectPrefix ++ "." ++ event.appId ++ "." ++ event.documentId := rfl
  rw [hsubject, ← String.toList_inj, toList_glue, toList_glue]
  simp

/-- **When events are published on one subject.** -/
theorem subject_eq_iff {event event' : CdcEvent} :
    (natsMessage subjectPrefix event).subject = (natsMessage subjectPrefix event').subject ↔
      (event.appId, event.documentId) = (event'.appId, event'.documentId) ∨
        Shadows event event' ∨ Shadows event' event := by
  rw [subject_eq, subject_eq, Prod.mk.injEq]
  constructor
  · intro h
    exact glue_eq_glue_iff.mp (glue_cancel h)
  · intro h
    rw [glue_eq_glue_iff.mpr h]

/-- An event is of the formation it is made for. -/
theorem Produced.app_eq {event : CdcEvent} (h : Produced orgId appId event) :
    event.appId = appId := by
  rcases h with ⟨F, change, now, hkey, hevent⟩ | ⟨B, orders, old, new, t, change, hmem, hkey, rfl⟩
  · have hF := Formation.event?_key hevent
    rw [hkey] at hF
    exact congrArg Prod.snd hF
  · rcases List.mem_flatMap.mp hmem with ⟨c, -, hchange⟩
    rcases List.mem_filterMap.mp hchange with ⟨doc, -, hdoc⟩
    rcases change?_eq_some.mp hdoc with ⟨docId, -, -, rfl⟩
    exact congrArg Prod.snd hkey

/-- A document may have any id. -/
theorem exists_produced (orgId appId documentId : String) :
    ∃ event, Produced orgId appId event ∧ event.documentId = documentId := by
  let F : Formation := ⟨orgId, appId, fun _ => 0⟩
  exact ⟨F.updateEvent ⟨some documentId, .empty, 0⟩,
    Or.inl ⟨F, .updated ⟨some documentId, .empty, 0⟩, 0, rfl, rfl⟩, rfl⟩

/-- **The subjects of a formation** are those that start with the prefix and its id. -/
theorem mem_subjects {s : String} :
    s ∈ subjects subjectPrefix orgId appId ↔
      ∃ d, s = glue '.' subjectPrefix (glue '.' appId d) := by
  constructor
  · intro h
    rcases h with ⟨event, hevent, rfl⟩
    exact ⟨event.documentId, by rw [subject_eq, hevent.app_eq]⟩
  · intro h
    rcases h with ⟨d, rfl⟩
    rcases exists_produced orgId appId d with ⟨event, hevent, hid⟩
    exact ⟨event, hevent, by rw [subject_eq, hevent.app_eq, hid]⟩

/-- A formation whose id extends another has subjects of that one. -/
theorem exists_mem_subjects_of_extends {appId' : String} (h : Extends appId appId') :
    ∃ s ∈ subjects subjectPrefix orgId appId, s ∈ subjects subjectPrefix orgId appId' := by
  rcases h with ⟨x, hx⟩
  have hsame : glue '.' appId (glue '.' x "") = glue '.' appId' "" :=
    glue_eq_glue_iff.mpr (Or.inr (Or.inl ⟨x, hx, rfl⟩))
  exact ⟨glue '.' subjectPrefix (glue '.' appId' ""),
    mem_subjects.mpr ⟨glue '.' x "", by rw [hsame]⟩, mem_subjects.mpr ⟨"", rfl⟩⟩

/-- Formations have no subject in common exactly if neither id extends the other. -/
theorem subjects_apart_iff {appId' : String} (hne : appId ≠ appId') :
    (∀ s ∈ subjects subjectPrefix orgId appId, s ∉ subjects subjectPrefix orgId appId') ↔
      ¬ Extends appId appId' ∧ ¬ Extends appId' appId := by
  constructor
  · intro h
    constructor
    · intro hext
      rcases exists_mem_subjects_of_extends hext with ⟨s, hs, hs'⟩
      exact h s hs hs'
    · intro hext
      rcases exists_mem_subjects_of_extends hext with ⟨s, hs', hs⟩
      exact h s hs hs'
  · intro h s hs hs'
    rcases mem_subjects.mp hs with ⟨d, rfl⟩
    rcases mem_subjects.mp hs' with ⟨d', hd⟩
    rcases glue_eq_glue_iff.mp (glue_cancel hd) with ⟨heq, -⟩ | ⟨x, hx, -⟩ | ⟨x, hx, -⟩
    · exact hne heq
    · exact h.1 ⟨x, hx⟩
    · exact h.2 ⟨x, hx⟩

end Subjects

/-- **Subjects tell documents exactly if no application id extends the other.**  Events of
different documents have different subjects if and only if none shadows the other, and two
formations of an organization have no subject in common if and only if neither id goes on with a
dot after the other. -/
theorem subjects_tell_iff (subjectPrefix orgId : String) :
    (∀ event event' : CdcEvent,
      (event.appId, event.documentId) ≠ (event'.appId, event'.documentId) →
      ((natsMessage subjectPrefix event).subject ≠ (natsMessage subjectPrefix event').subject ↔
        ¬ Shadows event event' ∧ ¬ Shadows event' event)) ∧
    ∀ appId appId', IsIdentifier appId → IsIdentifier appId' → appId ≠ appId' →
      ((∀ s ∈ subjects subjectPrefix orgId appId, s ∉ subjects subjectPrefix orgId appId') ↔
        ¬ Extends appId appId' ∧ ¬ Extends appId' appId) := by
  constructor
  · intro event event' hne
    rw [ne_eq, subject_eq_iff, or_iff_right hne, not_or]
  · intro appId appId' _ _ hne
    exact subjects_apart_iff hne

/-- A subject of the application `a` is none of `b`. -/
theorem subjects_tell_apart :
    glue '.' "peat.cdc" (glue '.' "a" "doc-1") ∉ subjects "peat.cdc" "acme" "b" := by
  have htell := (subjects_tell_iff "peat.cdc" "acme").2 "a" "b" (by decide) (by decide) (by decide)
  exact htell.mpr ⟨by decide, by decide⟩ _ (mem_subjects.mpr ⟨"doc-1", rfl⟩)

/-- The document `b.c` of the application `a`, and the document `c` of the application `a.b`. -/
theorem subjects_shared :
    IsIdentifier "a" ∧ IsIdentifier "a.b" ∧ ∃ event event', Produced "acme" "a" event ∧
      Produced "acme" "a.b" event' ∧ event.documentId = "b.c" ∧ event'.documentId = "c" ∧
      (natsMessage "peat.cdc" event).subject = (natsMessage "peat.cdc" event').subject := by
  rcases exists_produced "acme" "a" "b.c" with ⟨event, hevent, hid⟩
  rcases exists_produced "acme" "a.b" "c" with ⟨event', hevent', hid'⟩
  refine ⟨by decide, by decide, event, event', hevent, hevent', hid, hid', ?_⟩
  rw [subject_eq, subject_eq, hevent.app_eq, hevent'.app_eq, hid, hid']
  decide

end PeatGateway
