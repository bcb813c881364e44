/-
  CourseCharts — which numbers a sequencer accepts.

  A host may hand in any number, also one that it never got from the sequencer.

  * `Call` is what a sequencer is asked, `Record.after` the sequencer with its
    `Answer`s after some calls;
  * `issuedIn` and `acceptedIn` are the numbers in these answers that were given
    to requests and those whose responses were accepted;
  * `Agrees` relates the answers to the sequencer; every call keeps it
    (`Agrees.perform`);
  * `latest_number_accepted_once`: the latest number is accepted, and only once.
    Before the first request there is no latest number, and zero is taken for it.
-/
import CourseCharts.Request.Sequencer
import Mathlib.Data.List.Induction

namespace CourseCharts.Request

theorem Token.eq_of_number {s t : Token} (h : s.number = t.number) : s = t := by
  cases s; cases t; exact congrArg Token.mk h

/-! ## Calls and answers -/

/-- What a sequencer is asked. -/
inductive Call where
  | issue
  | complete (t : Token)
  | isCurrent (t : Token)

/-- What a sequencer answered. -/
inductive Answer where
  /-- The number of a new request. -/
  | issued (t : Token)
  /-- Whether a response was accepted. -/
  | completed (t : Token) (accepted : Bool)
  /-- Whether a request was the latest one. -/
  | current (t : Token) (isCurrent : Bool)

/-- A sequencer with its answers so far. -/
structure Record where
  sequencer : Sequencer
  answers : List Answer

/-- The record after a call. -/
def Call.perform (r : Record) : Call → Record
  | .issue =>
    let (t, s) := r.sequencer.issue
    ⟨s, r.answers ++ [.issued t]⟩
  | .complete t =>
    let (accepted, s) := r.sequencer.complete t
    ⟨s, r.answers ++ [.completed t accepted]⟩
  | .isCurrent t => { r with answers := r.answers ++ [.current t (r.sequencer.isCurrent t)] }

/-- The record of a new sequencer after some calls. -/
def Record.after (calls : List Call) : Record := calls.foldl Call.perform ⟨.initial, []⟩

/-- The numbers that were given to requests. -/
def issuedIn (as : List Answer) : List Token :=
  as.filterMap fun | .issued t => some t | _ => none

/-- The numbers whose responses were accepted. -/
def acceptedIn (as : List Answer) : List Token :=
  as.filterMap fun | .completed t true => some t | _ => none

/-- The latest number, for which zero stands before the first request. -/
def Newest (as : List Answer) (t : Token) : Prop :=
  (issuedIn as).getLast? = some t ∨ issuedIn as = [] ∧ t.number = 0

section
variable (as : List Answer) (t : Token) (b : Bool)

@[simp] theorem issuedIn_issued : issuedIn (as ++ [.issued t]) = issuedIn as ++ [t] := by
  simp [issuedIn]

@[simp] theorem issuedIn_completed : issuedIn (as ++ [.completed t b]) = issuedIn as := by
  simp [issuedIn]

@[simp] theorem issuedIn_current : issuedIn (as ++ [.current t b]) = issuedIn as := by
  simp [issuedIn]

@[simp] theorem acceptedIn_issued : acceptedIn (as ++ [.issued t]) = acceptedIn as := by
  simp [acceptedIn]

@[simp] theorem acceptedIn_completed :
    acceptedIn (as ++ [.completed t b]) = acceptedIn as ++ if b then [t] else [] := by
  cases b <;> simp [acceptedIn]

@[simp] theorem acceptedIn_current : acceptedIn (as ++ [.current t b]) = acceptedIn as := by
  simp [acceptedIn]

end

/-! ## Responses -/

namespace Sequencer

variable {s : Sequencer} {t : Token}

/-- An accepted response is to the latest request, and is remembered. -/
theorem complete_accepted (h : (s.complete t).1 = true) :
    t.number = s.issued ∧ s.complete t = (true, { s with completed := some t.number }) := by
  unfold complete at h ⊢
  split at h
  next haccepts =>
    rw [if_pos haccepts]
    exact ⟨beq_iff_eq.1 (Bool.and_eq_true_iff.1 haccepts).1, rfl⟩
  next => cases h

/-- A response that is not accepted changes nothing. -/
theorem complete_refused (h : (s.complete t).1 = false) : s.complete t = (false, s) := by
  unfold complete at h ⊢
  split at h
  next => cases h
  next hrefuses => exact if_neg hrefuses

end Sequencer

/-! ## What the answers tell of the sequencer -/

/-- The sequencer is what its answers say. -/
structure Agrees (r : Record) : Prop where
  issued : issuedIn r.answers = (List.range' 1 r.sequencer.issued).map Token.mk
  completed : r.sequencer.completed = (acceptedIn r.answers).getLast?.map Token.number
  number_le : ∀ t ∈ acceptedIn r.answers, t.number ≤ r.sequencer.issued
  ascending : (acceptedIn r.answers).Pairwise fun s t => s.number < t.number
  newest : ∀ before t after, r.answers = before ++ .completed t true :: after → Newest before t

namespace Agrees

theorem initial : Agrees ⟨.initial, []⟩ where
  issued := rfl
  completed := rfl
  number_le t ht := by cases ht
  ascending := .nil
  newest before t after h := by simp at h

variable {r : Record} (h : Agrees r)
include h

theorem latest_eq : r.sequencer.latest = (issuedIn r.answers).getLast? := by
  rw [h.issued, Sequencer.latest, List.getLast?_map, List.getLast?_range']
  split
  next hpos =>
    rw [if_neg (by omega), Option.map_some, Nat.add_sub_cancel_left]
  next hzero => rw [if_pos (by omega), Option.map_none]

theorem issuedIn_eq_nil_iff : issuedIn r.answers = [] ↔ r.sequencer.issued = 0 := by
  rw [h.issued, List.map_eq_nil_iff, List.range'_eq_nil_iff]

theorem isCurrent_iff (t : Token) : r.sequencer.isCurrent t = true ↔ Newest r.answers t := by
  rw [Newest, ← h.latest_eq, h.issuedIn_eq_nil_iff, Sequencer.isCurrent, beq_iff_eq,
    Sequencer.latest]
  obtain ⟨n⟩ := t
  split
  next hpos => simp [eq_comm, Nat.ne_of_gt hpos]
  next hzero =>
    have hissued : r.sequencer.issued = 0 := by omega
    simp [hissued]

/-- Of the accepted numbers, the latest one can only be the last. -/
theorem completed_iff {t : Token} (ht : t.number = r.sequencer.issued) :
    r.sequencer.completed = some t.number ↔ t ∈ acceptedIn r.answers := by
  rw [h.completed]
  rcases (acceptedIn r.answers).eq_nil_or_concat with hnil | ⟨ts, last, hlast⟩
  · simp [hnil]
  · have hle := h.number_le
    have hascending := h.ascending
    rw [hlast, List.concat_eq_append] at hle hascending ⊢
    rw [List.getLast?_concat, Option.map_some, Option.some_inj, List.mem_append,
      List.mem_singleton]
    constructor
    · intro hnumber
      exact .inr (Token.eq_of_number hnumber.symm)
    · rintro (hmem | rfl)
      · have hlt := (List.pairwise_append.1 hascending).2.2 t hmem last (by simp)
        have := hle last (by simp)
        omega
      · rfl

theorem accepts_iff (t : Token) : (r.sequencer.complete t).1 = true ↔
    Newest r.answers t ∧ t ∉ acceptedIn r.answers := by
  rw [← h.isCurrent_iff]
  by_cases hcurrent : r.sequencer.isCurrent t = true
  · have hnumber : t.number = r.sequencer.issued := by
      simpa [Sequencer.isCurrent] using hcurrent
    by_cases hcompleted : r.sequencer.completed = some t.number
    · simp [Sequencer.complete, hcurrent, hcompleted, (h.completed_iff hnumber).1 hcompleted]
    · have hmem := mt (h.completed_iff hnumber).2 hcompleted
      simp [Sequencer.complete, hcurrent, hcompleted, hmem]
  · simp [Sequencer.complete, hcurrent]

omit h in
/-- The last answer is the only new one. -/
theorem newest_concat {as : List Answer} {a : Answer}
    (has : ∀ before t after, as = before ++ .completed t true :: after → Newest before t)
    (ha : ∀ t, a = .completed t true → Newest as t) (before : List Answer) (t : Token)
    (after : List Answer) (heq : as ++ [a] = before ++ .completed t true :: after) :
    Newest before t := by
  rcases after.eq_nil_or_concat with rfl | ⟨after, b, rfl⟩
  · obtain ⟨rfl, hlast⟩ := List.append_inj' heq rfl
    exact ha t (by simpa using hlast)
  · rw [List.concat_eq_append, ← List.cons_append, ← List.append_assoc] at heq
    exact has before t after (List.append_inj' heq rfl).1

/-- Every call is answered so that the answers go on to say what the sequencer is. -/
theorem perform (c : Call) : Agrees (c.perform r) := by
  cases c with
  | issue =>
    refine ⟨?_, ?_, fun t ht => ?_, ?_, newest_concat h.newest (by simp)⟩
    · simp [Call.perform, Sequencer.issue, h.issued, List.range'_concat, Nat.add_comm]
    · simpa [Call.perform, Sequencer.issue] using h.completed
    · have := h.number_le t (by simpa [Call.perform] using ht)
      simp only [Call.perform, Sequencer.issue]
      omega
    · simpa [Call.perform] using h.ascending
  | isCurrent t =>
    exact ⟨by simpa [Call.perform] using h.issued, by simpa [Call.perform] using h.completed,
      by simpa [Call.perform] using h.number_le, by simpa [Call.perform] using h.ascending,
      newest_concat h.newest (by simp)⟩
  | complete t =>
    cases haccepts : (r.sequencer.complete t).1 with
    | true =>
      obtain ⟨hnewest, hfresh⟩ := (h.accepts_iff t).1 haccepts
      obtain ⟨hnumber, hcomplete⟩ := Sequencer.complete_accepted haccepts
      simp only [Call.perform, hcomplete]
      refine ⟨by simpa using h.issued, by simp, fun u hu => ?_, ?_, newest_concat h.newest ?_⟩
      · rcases List.mem_append.1 (acceptedIn_completed _ _ _ ▸ hu) with hu | hu
        · exact h.number_le u hu
        · rw [List.mem_singleton.1 hu]
          exact Nat.le_of_eq hnumber
      · rw [acceptedIn_completed, if_pos rfl]
        refine List.pairwise_append.2
          ⟨h.ascending, List.pairwise_singleton _ _, fun u hu v hv => ?_⟩
        rw [List.mem_singleton.1 hv]
        have hle := h.number_le u hu
        have hne : u.number ≠ t.number := fun he => hfresh (Token.eq_of_number he ▸ hu)
        omega
      · rintro u hu
        cases hu
        exact hnewest
    | false =>
      simp only [Call.perform, Sequencer.complete_refused haccepts]
      exact ⟨by simpa using h.issued, by simpa using h.completed, by simpa using h.number_le,
        by simpa using h.ascending, newest_concat h.newest (by simp)⟩

omit h in
theorem after (calls : List Call) : Agrees (.after calls) := by
  induction calls using List.reverseRecOn with
  | nil => exact .initial
  | append_singleton calls c ih =>
    rw [Record.after, List.foldl_append]
    exact ih.perform c

end Agrees

/-- **The latest number is accepted once.**  After any calls with any numbers,

    * requests have been given the numbers from one on, without a gap, and the
      latest one is the last of these;
    * a number is taken for the current one if it is the latest; if there is none,
      zero is;
    * a response is accepted if its number is taken for the current one and none
      to it was accepted before, and changes nothing otherwise;
    * so every accepted number was given to a request before, unless it is zero
      and no request had been made, and the accepted numbers ascend. -/
theorem latest_number_accepted_once (calls : List Call) :
    let r := Record.after calls
    let s := r.sequencer
    issuedIn r.answers = (List.range' 1 s.issued).map Token.mk ∧
    s.latest = (issuedIn r.answers).getLast? ∧
    (∀ t, s.isCurrent t = true ↔ s.latest = some t ∨ s.latest = none ∧ t.number = 0) ∧
    (∀ t, (s.complete t).1 = true ↔
      (s.latest = some t ∨ s.latest = none ∧ t.number = 0) ∧ t ∉ acceptedIn r.answers) ∧
    (∀ t, (s.complete t).1 = false → (s.complete t).2 = s) ∧
    (∀ before t after, r.answers = before ++ .completed t true :: after →
      t ∈ issuedIn before ∨ issuedIn before = [] ∧ t.number = 0) ∧
    (acceptedIn r.answers).Pairwise (fun t u => t.number < u.number) := by
  intro r s
  have h : Agrees r := .after calls
  have hnewest (t : Token) :
      Newest r.answers t ↔ s.latest = some t ∨ s.latest = none ∧ t.number = 0 := by
    rw [Newest, h.latest_eq, List.getLast?_eq_none_iff]
  refine ⟨h.issued, h.latest_eq, fun t => ?_, fun t => ?_, fun t ht => ?_,
    fun before t after heq => ?_, h.ascending⟩
  · rw [h.isCurrent_iff, hnewest]
  · rw [h.accepts_iff, hnewest]
  · rw [Sequencer.complete_refused ht]
  · exact (h.newest before t after heq).imp_left List.mem_of_getLast?

/-- Zero is accepted before the first request, once, and never after it. -/
example : (Record.after [.complete ⟨0⟩, .complete ⟨0⟩, .issue, .complete ⟨0⟩,
    .complete ⟨1⟩]).answers = [.completed ⟨0⟩ true, .completed ⟨0⟩ false, .issued ⟨1⟩,
    .completed ⟨0⟩ false, .completed ⟨1⟩ true] := rfl

end CourseCharts.Request
