import ModelLint.Proofs.Source.Building
import ModelLint.Source.Unit

/-!
# What building takes

Nodes can only be built of a statement whose handlers all have a written form, wherever they stand
below it.

* `Needs`: a step succeeds only if something holds.
* **`needs_stmtNodes`**: the nodes of a statement.
* `needs_moduleNode`: the node of a module.
-/

namespace ModelLint.Source

open Build

variable {α β : Type} {x : Build α} {f : α → Build β} {P Q : Prop} {locks : List String}
  {name : String} {r : Range}

/-- A step succeeds only if something holds. -/
def Needs (x : Build α) (P : Prop) : Prop := ∀ s, Runs x s (fun _ => True) fun _ _ => P

theorem Needs.of (h : P) : Needs x P := by
  intro s
  rw [Runs]
  split
  · exact h
  · trivial

theorem Needs.and (h : Needs x P) (h' : Needs x Q) : Needs x (P ∧ Q) := by
  intro s
  have h := h s
  have h' := h' s
  rw [Runs] at h h' ⊢
  split
  · next hx => rw [hx] at h h'; exact ⟨h, h'⟩
  · trivial

theorem Needs.first (h : Needs x P) : Needs (x >>= f) P :=
  fun s => (h s).bind fun _ s' hP => Needs.of hP s'

theorem Needs.next (h : ∀ a, Needs (f a) P) : Needs (x >>= f) P :=
  fun s => Runs.bind (Needs.of trivial s) fun a s' (_ : True) => h a s'

theorem Needs.withFrame {frame : Frame} (h : Needs x P) : Needs (withFrame frame x) P :=
  .next fun _ => h.first

theorem Needs.withQualifier (h : Needs x P) : Needs (withQualifier name x) P :=
  .next fun _ => h.first

theorem Needs.withReceiver {receiver : Option Receiver} (h : Needs x P) :
    Needs (withReceiver receiver x) P := by
  rcases receiver with _ | receiver
  · exact h
  · exact .next fun _ => h.first

theorem Needs.withPending {x : Build (List Tree)} (h : Needs x P) : Needs (withPending x) P :=
  .first (.next fun _ => .next fun _ => h.first)

theorem Needs.withCaught {x : Build Tree} {caught : Option String} {types : List String}
    (h : Needs x P) : Needs (withCaught caught types x) P := by
  rcases caught with _ | name
  · exact h.first
  · exact .next fun _ => .next fun _ => .next fun _ => h.first

theorem Needs.methodNode {x : Build (List Tree)} {signature : Signature} {fields : Option Names}
    (h : Needs x P) : Needs (methodNode r signature fields x) P :=
  .next fun _ => .first (.withReceiver (.withQualifier (.withFrame h)))

theorem Needs.functionNode {x : Build (List Tree)} {signature : Signature} (h : Needs x P) :
    Needs (functionNode r signature x) P :=
  .next fun _ => .next fun _ => .next fun _ => .first (.withFrame h)

/-! ## Statements -/

mutual

theorem needs_stmtNodes : (stmt : Stmt) → Needs (stmtNodes locks stmt) (stmt.isWritten = true)
  | .function r signature body => by
    rw [stmtNodes]
    exact .withPending (.first (.functionNode (needs_stmtsNodes body)))
  | .classType r name bases body => by
    rw [stmtNodes]
    exact .withPending (.next fun c => .first (.withQualifier (needs_memberNodes body c [])))
  | .forEach r isAsync target source body orElse => by
    rw [stmtNodes, Stmt.isWritten, Bool.and_eq_true]
    refine .withPending (.next fun _ => .next fun _ => .and ?_ ?_)
    · exact .first (needs_stmtsNodes body)
    · exact .next fun _ => .first (needs_stmtsNodes orElse)
  | .whileLoop r condition body orElse => by
    rw [stmtNodes, Stmt.isWritten, Bool.and_eq_true]
    refine .withPending (.and (.first (needs_stmtsNodes body)) ?_)
    exact .next fun _ => .next fun _ => .first (needs_stmtsNodes orElse)
  | .choose r condition body orElse => by
    rw [stmtNodes, Stmt.isWritten, Bool.and_eq_true]
    refine .withPending (.next fun _ => .and (.first (needs_stmtsNodes body)) ?_)
    exact .next fun _ => .first (needs_stmtsNodes orElse)
  | .withResources r resources body => by
    rw [stmtNodes]
    exact .withPending (.next fun _ => .first (needs_stmtsNodes body))
  | .matchCases r subject cases => by
    rw [stmtNodes]
    exact .withPending (.next fun _ => .first (needs_caseNodes r cases))
  | .guarded r body handlers orElse finalBody => by
    simp only [stmtNodes, Stmt.isWritten, Bool.and_eq_true]
    refine .withPending (.and (.and (.and (.first (needs_stmtsNodes body)) ?_) ?_) ?_)
    · exact .next fun _ => .first (needs_handlerNodes handlers)
    · exact .next fun _ => .next fun _ => .next fun _ => .first (needs_stmtsNodes orElse)
    · exact .next fun _ => .next fun _ => .first (needs_stmtsNodes finalBody)
  | .returnValue _ _ | .assign _ _ _ | .augment _ _ _ _ | .annotate _ _ _ _ | .throwError _ _ _
  | .imports _ _ | .globals _ _ | .nonlocals _ _ | .expr _ _ | .simple _ _ _ => .of rfl

theorem needs_stmtsNodes : (body : List Stmt) →
    Needs (stmtsNodes locks body) (areWritten body = true)
  | [] => .of rfl
  | stmt :: rest => by
    rw [stmtsNodes, areWritten, Bool.and_eq_true]
    exact .and (.first (needs_stmtNodes stmt)) (.next fun _ => .first (needs_stmtsNodes rest))

theorem needs_caseNodes : (r : Range) → (cases : List (List Stmt)) →
    Needs (caseNodes locks r cases) (areWrittenCases cases = true)
  | _, [] => .of rfl
  | r, body :: rest => by
    rw [caseNodes, areWrittenCases, Bool.and_eq_true]
    exact .and (.first (needs_stmtsNodes body)) (.next fun _ => .first (needs_caseNodes r rest))

theorem needs_handlerNodes : (handlers : List Handler) →
    Needs (handlerNodes locks handlers) (areWrittenHandlers handlers = true)
  | [] => .of rfl
  | .mk r type name body :: rest => by
    simp only [handlerNodes, areWrittenHandlers, Bool.and_eq_true]
    rcases htypes : Expr.handledTypes type with _ | types
    · exact fun s => runs_throw trivial
    · refine .and (.and (.of rfl) (.first (.withCaught (.first (needs_stmtsNodes body))))) ?_
      exact .next fun _ => .first (needs_handlerNodes rest)

theorem needs_memberNodes : (body : List Stmt) → (c : OpenClass) → (emitted : List String) →
    Needs (memberNodes locks c emitted body) (areWrittenMembers body = true)
  | [], _, _ => .of rfl
  | stmt :: rest, c, emitted => by
    cases stmt with
    | function r signature body =>
      rw [memberNodes, areWrittenMembers, Bool.and_eq_true]
      refine .and (.first (.methodNode (needs_stmtsNodes body))) ?_
      exact .next fun _ => .first (needs_memberNodes rest c emitted)
    | classType r name bases body =>
      rw [memberNodes, areWrittenMembers, Bool.and_eq_true]
      refine .next fun inner => .and (.first (.withQualifier (needs_memberNodes body inner []))) ?_
      exact .next fun _ => .next fun _ => .first (needs_memberNodes rest c emitted)
    | assign r targets value =>
      obtain ⟨x, hmembers, -⟩ := memberNodes_assign locks c emitted r targets value rest
      rw [hmembers]
      exact .next fun _ => .next fun p => .first (needs_memberNodes rest c p.2)
    | annotate r target typeHint value =>
      obtain ⟨x, hmembers, -⟩ := memberNodes_annotate locks c emitted r target typeHint value rest
      rw [hmembers]
      exact .next fun _ => .next fun p => .first (needs_memberNodes rest c p.2)
    | _ =>
      simp only [memberNodes, areWrittenMembers]
      exact needs_memberNodes rest c emitted

end

/-! ## Modules -/

theorem needs_addStatement {parts : ModuleParts} (stmt : Stmt) :
    Needs (parts.addStatement locks stmt) (stmt.isWritten = true) := by
  have hinFrame : ∀ parts : ModuleParts,
      Needs (parts.inFrame (stmtNodes locks stmt)) (stmt.isWritten = true) :=
    fun parts => .next fun _ => .first (needs_stmtNodes stmt)
  cases stmt with
  | function r signature body => exact .first (.methodNode (needs_stmtsNodes body))
  | classType r name bases body =>
    exact .next fun c => .first (.withQualifier (needs_memberNodes body c []))
  | imports r names => exact .of rfl
  | assign r targets value => exact .of rfl
  | annotate r target typeHint value => exact .of rfl
  | _ => exact hinFrame parts

theorem needs_foldlM_addStatement : (body : List Stmt) → (parts : ModuleParts) →
    Needs (body.foldlM (fun parts stmt => parts.addStatement locks stmt) parts)
      (areWritten body = true)
  | [], _ => .of rfl
  | stmt :: rest, parts => by
    rw [List.foldlM_cons, areWritten, Bool.and_eq_true]
    exact .and (.first (needs_addStatement stmt))
      (.next fun parts => needs_foldlM_addStatement rest parts)

theorem needs_moduleNode {moduleName : String} {body : List Stmt} :
    Needs (moduleNode locks moduleName body) (areWritten body = true) := by
  rw [moduleNode]
  exact .next fun _ => .next fun _ => .first (needs_foldlM_addStatement body _)

end ModelLint.Source
