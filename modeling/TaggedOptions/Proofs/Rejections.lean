import Mathlib
import TaggedOptions.Proofs.Acceptance

/-! # Rejected declarations

Whether a declaration is accepted depends on the names in use alone, and a rejection leaves these
and the command as they were.  So a run can be taken apart call by call: the accepted calls alone
build the command, the rejected ones alone account for the errors, and neither kind disturbs the
other.
-/

namespace TaggedOptions

structure Call where
  before : Assembly
  declaration : Declaration

namespace Call

def after (c : Call) : Assembly :=
  c.before.add c.declaration.spellings c.declaration.directives

def rejects (c : Call) : Bool := decide (c.after.errors ≠ c.before.errors)

structure Accepted (c : Call) : Prop where
  command : c.after.command = c.before.command.push c.declaration.argument
  errors : c.after.errors = c.before.errors

structure Rejected (c : Call) (e : BuildError) : Prop where
  command : c.after.command = c.before.command
  reserved : c.after.reserved = c.before.reserved
  errors : c.after.errors = c.before.errors ++ [e]

theorem Accepted.not_rejects {c : Call} (h : c.Accepted) : c.rejects = false := by
  simp [rejects, h.errors]

theorem Rejected.rejects {c : Call} {e : BuildError} (h : c.Rejected e) : c.rejects = true := by
  simp [Call.rejects, h.errors]

end Call

namespace Assembly

def withRejections (a : Assembly) (past : List Rejection) : Assembly :=
  { a with rejections := past }

@[simp] theorem errors_push (a : Assembly) (argument : Argument) :
    (a.push argument).errors = a.errors := rfl

@[simp] theorem errors_reject (a : Assembly) (r : Rejection) :
    (a.reject r).errors = a.errors ++ [r.error] := by simp [errors, reject]

@[simp] theorem withRejections_push (a : Assembly) (argument : Argument) (past : List Rejection) :
    (a.push argument).withRejections past = (a.withRejections past).push argument := rfl

@[simp] theorem withRejections_reject (a : Assembly) (r : Rejection) (past : List Rejection) :
    (a.reject r).withRejections past = a.withRejections past := rfl

/-- An admitted declaration is added whatever was rejected before. -/
theorem add_of_admits {a : Assembly} {d : Declaration} (valid : d.Valid)
    (admits : a.reserved.Admits d.argument) :
    a.add d.spellings d.directives = a.push d.argument := by
  rcases a.add_cases d with ⟨_, _, pushed⟩ | ⟨refused, _⟩
  · exact pushed
  · exact absurd ⟨valid, admits⟩ refused

/-- The calls that adding declarations one after the other consists of. -/
def calls (a : Assembly) : List Declaration → List Call
  | [] => []
  | d :: ds => ⟨a, d⟩ :: (a.add d.spellings d.directives).calls ds

def accepted (a : Assembly) (ds : List Declaration) : List Declaration :=
  ((a.calls ds).filter fun c => !c.rejects).map (·.declaration)

theorem map_declaration_calls (a : Assembly) (ds : List Declaration) :
    (a.calls ds).map (·.declaration) = ds := by
  induction ds generalizing a with
  | nil => rfl
  | cons d ds ih => simp [calls, ih]

end Assembly

/-- A call appends the argument of its declaration, or records one error and does nothing else. -/
theorem Call.accepted_or_rejected (c : Call) : c.Accepted ∨ ∃ e, c.Rejected e := by
  rcases c.before.add_cases c.declaration with ⟨_, _, pushed⟩ | ⟨_, e, rejected⟩
  · left
    have after : c.after = c.before.push c.declaration.argument := pushed
    exact ⟨by rw [after]; rfl, by rw [after, Assembly.errors_push]⟩
  · right
    have after : c.after = c.before.reject ⟨c.declaration.spellings, e⟩ := rejected
    exact ⟨e, by rw [after]; rfl, by rw [after]; rfl, by rw [after, Assembly.errors_reject]⟩

namespace Assembly

/-- A declaration is kept where its argument is added, and deleted where it is rejected. -/
theorem accepted_cons_cases (a : Assembly) (d : Declaration) (ds : List Declaration) :
    (d.Valid ∧ a.reserved.Admits d.argument ∧
      a.add d.spellings d.directives = a.push d.argument ∧
      a.accepted (d :: ds) = d :: (a.push d.argument).accepted ds) ∨
    ∃ r, a.add d.spellings d.directives = a.reject r ∧
      a.accepted (d :: ds) = (a.reject r).accepted ds := by
  rcases a.add_cases d with ⟨valid, admits, pushed⟩ | ⟨_, e, rejected⟩
  · have keeps : (⟨a, d⟩ : Call).rejects = false := by simp [Call.rejects, Call.after, pushed]
    exact .inl ⟨valid, admits, pushed, by simp [accepted, calls, keeps, pushed]⟩
  · have drops : (⟨a, d⟩ : Call).rejects = true := by simp [Call.rejects, Call.after, rejected]
    exact .inr ⟨_, rejected, by simp [accepted, calls, drops, rejected]⟩

/-- Without its rejected declarations, and from any record of rejections, a run ends as before, but
with that record. -/
theorem addAll_accepted (a : Assembly) (ds : List Declaration) (past : List Rejection) :
    (a.withRejections past).addAll (a.accepted ds) = (a.addAll ds).withRejections past := by
  -- the record stays as it is on the left, while on the right every rejection is added to it
  induction ds generalizing a with
  | nil => rfl
  | cons d ds ih =>
    rw [addAll_cons]
    rcases a.accepted_cons_cases d ds with ⟨valid, admits, pushed, keeps⟩ | ⟨r, rejected, drops⟩
    · have again : (a.withRejections past).add d.spellings d.directives =
          (a.withRejections past).push d.argument := add_of_admits valid admits
      rw [keeps, addAll_cons, again, pushed, ← withRejections_push]
      exact ih (a.push d.argument)
    · rw [drops, rejected, ← ih, withRejections_reject]

/-- A run adds one error for each rejected call, in the order of the calls. -/
theorem errors_addAll (a : Assembly) (ds : List Declaration) :
    ∃ es, (a.addAll ds).errors = a.errors ++ es ∧
      List.Forall₂ Call.Rejected ((a.calls ds).filter (·.rejects)) es := by
  induction ds generalizing a with
  | nil => exact ⟨[], by simp, .nil⟩
  | cons d ds ih =>
    obtain ⟨es, errors, each⟩ := ih (a.add d.spellings d.directives)
    rw [addAll_cons, errors, calls]
    rcases (⟨a, d⟩ : Call).accepted_or_rejected with accepted | ⟨e, rejected⟩
    · refine ⟨es, ?_, ?_⟩
      · exact congrArg (· ++ es) accepted.errors
      · rw [List.filter_cons_of_neg (by simp [accepted.not_rejects])]
        exact each
    · refine ⟨e :: es, ?_, ?_⟩
      · rw [List.append_cons]
        exact congrArg (· ++ es) rejected.errors
      · rw [List.filter_cons_of_pos rejected.rejects]
        exact .cons rejected each

/-- Each call of a run appends one argument or records one error and does nothing else.  Replaying
the accepted declarations alone gives the same command and the same names in use without any new
error; the new errors are those of the rejected calls, one for each and in order, and finishing
gives the first error there is. -/
theorem rejected_inert (a : Assembly) (ds : List Declaration) :
    let calls := a.calls ds
    let final := a.addAll ds
    let replayed := a.addAll (a.accepted ds)
    (calls.map (·.declaration) = ds ∧ ∀ c ∈ calls, c.Accepted ∨ ∃ e, c.Rejected e) ∧
      (replayed.command = final.command ∧ replayed.reserved = final.reserved ∧
        replayed.errors = a.errors) ∧
      (∃ es, final.errors = a.errors ++ es ∧
        List.Forall₂ Call.Rejected (calls.filter (·.rejects)) es) ∧
      final.finish = final.errors.head?.elim (.ok final.command) .error := by
  intro calls final replayed
  have replay : replayed = final.withRejections a.rejections := a.addAll_accepted ds a.rejections
  refine ⟨⟨a.map_declaration_calls ds, fun c _ => c.accepted_or_rejected⟩, ?_,
    a.errors_addAll ds, ?_⟩
  · rw [replay]
    exact ⟨rfl, rfl, rfl⟩
  · unfold finish
    cases final.errors <;> rfl

/-- The second of four declarations is refused for its destination, and so its short flag is still
there for the third. -/
theorem rejected_inert_short_flag :
    let output : Declaration := ⟨["--out"], {}, .empty⟩
    let again : Declaration := ⟨["--out", "-o"], {}, .empty⟩
    let order : Declaration := ⟨["--order", "-o"], {}, .empty⟩
    let broken : Declaration := ⟨["---"], {}, .empty⟩
    let a := (new "codegen").addAll [output, again, order, broken]
    (∃ e, (⟨(new "codegen").addAll [output], again⟩ : Call).Rejected e) ∧
      ((new "codegen").addAll [output, order]).command = a.command ∧
      ((new "codegen").addAll [output, order]).errors = [] ∧
      a.finish = .error (.destinationTaken "out") := by
  intro output again order broken a
  have kept : (new "codegen").accepted [output, again, order, broken] = [output, order] := by
    decide +kernel
  obtain ⟨⟨_, each⟩, ⟨command, _, errors⟩, _, finish⟩ :=
    rejected_inert (new "codegen") [output, again, order, broken]
  rw [kept] at command errors
  refine ⟨?_, command, errors, finish.trans (by decide +kernel)⟩
  have called : (⟨(new "codegen").addAll [output], again⟩ : Call) ∈
      (new "codegen").calls [output, again, order, broken] :=
    List.mem_cons_of_mem _ List.mem_cons_self
  rcases each _ called with accepted | rejected
  · have refused : (⟨(new "codegen").addAll [output], again⟩ : Call).rejects = true := by
      decide +kernel
    rw [accepted.not_rejects] at refused
    cases refused
  · exact rejected

end Assembly

end TaggedOptions
