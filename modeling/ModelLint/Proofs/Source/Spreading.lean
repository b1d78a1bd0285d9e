import ModelLint.Proofs.Source.Alike
import ModelLint.Proofs.Source.Quiet

/-!
# Building with one resource at a time

A `with` statement of plain resources becomes the same nodes as the statements inside each other that it
stands for: what it is built of puts no declaration before it, so it does not matter at which statement
the declarations of names are collected.

* **`stmtNodes_withResources_cons`**: the first of several plain resources may as well have a statement of
  its own.
* `alike_openClass`: a class that keeps its fields is opened in the same way.
* **`alike_stmtsNodes`**, `alike_memberNodes`: statements, and members of classes, become the same nodes with
  one resource at a time.
-/

namespace ModelLint.Source

open Build

variable {locks : List String} {split : Range → Bool} {r r' : Range} {t t' : Tree} {ts ts' : List Tree}
  {body body' : List Stmt}
  {name : String}

/-! ## Resources -/

theorem alike_hold (resource : Resource) :
    Alike SameHeld (hold locks resource) (hold locks resource.placeless) :=
  (alike_exprNode resource.context).bind fun _ _ ht => alike_heldFor locks _ _ ht

theorem alike_heldResources : (resources : List Resource) →
    Alike (List.Forall₂ SameHeld) (heldResources locks resources)
      (heldResources locks (resources.map Resource.placeless))
  | [] => .pure .nil
  | resource :: rest => by
    rw [List.map_cons, heldResources_hold, heldResources_hold]
    exact (alike_hold resource).bind fun _ _ hheld => (alike_heldResources rest).bind
      fun _ _ hrest => .pure (.cons hheld hrest)

theorem sameTree_block (h : SameTrees ts ts') : SameTree (nodeAt r (.block ts)) (nodeAt r' (.block ts')) :=
  sameTree_nodeAt (by simp only [Shape.placeless, placelessAll_eq, h])

theorem sameTree_asBlock (h : SameTree t t') : SameTree (asBlock r t) (asBlock r' t') := by
  have hother : SameTree (nodeAt r (.block [t])) (nodeAt r' (.block [t'])) :=
    sameTree_block (SameTree.singleton h)
  obtain ⟨l, shape⟩ := t
  obtain ⟨l', shape'⟩ := t'
  have hshape : shape.placeless = shape'.placeless := (Tree.node.inj h).2
  cases shape <;> cases shape' <;> first | exact hother | exact h | cases hshape

theorem sameTree_holdAll_one {held held' : Held} (hheld : SameHeld held held') (h : SameTree t t') :
    SameTree (holdAll r [held] t) (holdAll r' [held'] t') := by
  have hblock : SameTree (asBlock r t) (asBlock r' t') := sameTree_asBlock h
  cases held <;> cases held' <;> first | cases hheld | skip
  case lock.lock target target' =>
    have htarget : SameTree target target' := hheld
    refine sameTree_nodeAt ?_
    simp only [Shape.placeless, htarget]
    exact congrArg _ hblock
  case resource.resource node node' =>
    have hnode : SameTrees [node] [node'] := SameTree.singleton hheld
    refine sameTree_nodeAt ?_
    simp only [Shape.placeless, placelessAll_eq, placelessSome]
    exact congrArg₂ _ hnode (congrArg some hblock)

theorem sameTree_holdAll {held held' : List Held} (hheld : List.Forall₂ SameHeld held held')
    (h : SameTree t t') : SameTree (holdAll r held t) (holdAll r' held' t') := by
  induction hheld with
  | nil => exact h
  | cons hhead _ ih => exact sameTree_holdAll_one hhead ih

theorem holdAll_cons (first second : Held) (rest : List Held) (t : Tree) :
    holdAll r (first :: second :: rest) t =
      holdAll r [first] (nodeAt r (.block [holdAll r (second :: rest) t])) := by
  cases first <;> cases second <;> rfl

/-! ## Resources with statements of their own -/

theorem alike_withPending {x y : Build (List Tree)} (h : Alike SameTrees x y) :
    Alike SameTrees (withPending x) (withPending y) :=
  h.collectPending.bind fun _ _ hp => .pure (hp.1.append hp.2)

theorem sameTree_blockAt (h : SameTrees ts ts') :
    SameTree (blockAt r body ts) (blockAt r' body' ts') := sameTree_block h

/-- **The first of several plain resources may as well have a statement of its own.** -/
theorem stmtNodes_withResources_cons {first second : Resource} {rest : List Resource}
    (hfirst : first.isPlain = true) (hrest : (second :: rest).all Resource.isPlain = true) :
    stmtNodes locks (.withResources r (first :: second :: rest) body) = withPending do
      let held ← hold locks first
      let inner ← stmtNodes locks (.withResources r (second :: rest) body)
      return [holdAll r [held] (nodeAt r (.block inner))] := by
  let others : Build (List Tree) := do
    let held ← heldResources locks (second :: rest)
    return [holdAll r held (blockAt r body (← stmtsNodes locks body))]
  have hothers : Quiet others := (quiet_heldResources _ hrest).bind fun _ =>
    (quiet_stmtsNodes body).bind fun _ => quiet_pure
  have hone : Quiet (hold locks first) := quiet_hold hfirst
  have hall : stmtNodes locks (.withResources r (first :: second :: rest) body) = withPending do
      let held ← hold locks first
      let inner ← others
      return [holdAll r [held] (nodeAt r (.block inner))] := by
    rw [stmtNodes, heldResources_hold, heldResources_hold]
    simp only [others, heldResources_hold, bind_assoc, pure_bind, holdAll_cons]
  have hinner : stmtNodes locks (.withResources r (second :: rest) body) = withPending others := by
    rw [stmtNodes]
  rw [hall, hinner]
  exact withPending_bind hone hothers

theorem alike_withResources (hbody : Alike SameTrees (stmtsNodes locks body) (stmtsNodes locks body'))
    (resources : List Resource) :
    Alike SameTrees (stmtNodes locks (.withResources r resources body))
      (stmtNodes locks (.withResources r' (resources.map Resource.placeless) body')) := by
  rw [stmtNodes, stmtNodes]
  exact alike_withPending ((alike_heldResources resources).bind fun _ _ hheld => hbody.bind
    fun _ _ hts => .pure (SameTree.singleton (sameTree_holdAll hheld (sameTree_blockAt hts))))

/-- **A statement of plain resources** becomes the same nodes as the statements inside each other. -/
theorem alike_nest (hbody : Alike SameTrees (stmtsNodes locks body) (stmtsNodes locks body')) :
    (resources : List Resource) → resources.all Resource.isPlain = true →
    Alike SameTrees (stmtNodes locks (.withResources r resources body))
      (stmtNodes locks (nest (resources.map Resource.placeless) body'))
  | [], _ => alike_withResources hbody []
  | [resource], _ => alike_withResources hbody [resource]
  | first :: second :: rest, hplain => by
    rw [List.all_cons, Bool.and_eq_true] at hplain
    have hinner := alike_nest hbody (second :: rest) hplain.2
    have hone : stmtNodes locks (nest ((first :: second :: rest).map Resource.placeless) body') =
        withPending do
          let held ← hold locks first.placeless
          let inner ← stmtNodes locks (nest ((second :: rest).map Resource.placeless) body')
          return [holdAll default [held]
            (blockAt default [nest ((second :: rest).map Resource.placeless) body'] inner)] := by
      rw [List.map_cons, List.map_cons, nest, stmtNodes, heldResources_hold]
      · simp only [heldResources, stmtsNodes, bind_assoc, pure_bind, List.append_nil]
      · exact List.cons_ne_nil _ _
    rw [stmtNodes_withResources_cons hplain.1 hplain.2, hone]
    exact alike_withPending ((alike_hold first).bind fun _ _ hheld => hinner.bind fun _ _ hts =>
      .pure (SameTree.singleton (sameTree_holdAll_one hheld (sameTree_block hts))))

/-! ## Classes -/

/-- Fields are the same but for places, and have the same variables. -/
abbrev SameFields (own own' : List (Field × VariableId)) : Prop :=
  own.map (fun p => (p.1.placeless, p.2)) = own'.map fun p => (p.1.placeless, p.2)

/-- Open classes are the same but for the places of their fields. -/
structure SameClass (c c' : OpenClass) : Prop where
  own : SameFields c.own c'.own
  all : c.all = c'.all

theorem SameFields.cons_iff {f f' : Field} {v v' : VariableId} {own own' : List (Field × VariableId)} :
    SameFields ((f, v) :: own) ((f', v') :: own') ↔
      f.placeless = f'.placeless ∧ v = v' ∧ SameFields own own' := by
  simp only [SameFields, List.map_cons, List.cons.injEq, Prod.mk.injEq, and_assoc]

theorem SameFields.names {own own' : List (Field × VariableId)} (h : SameFields own own') :
    (own.map fun p => (p.1.name, p.2)) = own'.map fun p => (p.1.name, p.2) := by
  have hmap : ∀ own : List (Field × VariableId), (own.map fun p => (p.1.name, p.2)) =
      (own.map fun p => (p.1.placeless, p.2)).map fun p => (p.1.name, p.2) := fun own => by
    rw [List.map_map]
    rfl
  rw [hmap, h, ← hmap]

/-- The variable of the field of a name that a class has of its own. -/
def OpenClass.ownField? (c : OpenClass) (name : String) : Option VariableId :=
  (c.own.find? fun p => p.1.name = name).map Prod.snd

theorem SameClass.ownField? {c c' : OpenClass} (h : SameClass c c') (name : String) :
    c.ownField? name = c'.ownField? name := by
  have hmap : ∀ c : OpenClass, c.ownField? name =
      ((c.own.map fun p => (p.1.placeless, p.2)).find? fun p => p.1.name = name).map Prod.snd :=
    fun c => by
      rw [List.find?_map, Option.map_map]
      rfl
  rw [hmap, h.own, ← hmap]

theorem alike_fieldVariables : (fields fields' : List Field) →
    fields.map Binding.placeless = fields'.map Binding.placeless →
    Alike SameFields (fieldVariables fields) (fieldVariables fields')
  | [], [], _ => .pure rfl
  | f :: rest, f' :: rest', h => by
    obtain ⟨hhead, hrest⟩ := List.cons.inj h
    obtain ⟨n, type, r, isImport, isNested, isStatic⟩ := f
    obtain ⟨n', type', r', isImport', isNested', isStatic'⟩ := f'
    simp only [Binding.placeless, Binding.mk.injEq, true_and] at hhead
    obtain ⟨rfl, rfl, rfl, rfl, rfl⟩ := hhead
    exact alike_newVariable.next fun v => (alike_fieldVariables rest rest' hrest).bind
      fun _ _ hown => .pure (SameFields.cons_iff.mpr ⟨rfl, rfl, hown⟩)
  | [], _ :: _, h | _ :: _, [], h => nomatch h

theorem alike_modify_classFields {k : List (String × Names) → List (String × Names)} :
    Alike Eq (modify fun s => { s with classFields := k s.classFields } : Build PUnit)
      (modify fun s => { s with classFields := k s.classFields }) :=
  alike_of_blind fun _ _ _ => rfl

/-- **A class that keeps its fields** is opened in the same way. -/
theorem alike_openClass {bases : List Expr} (h : fieldsOf body' = fieldsOf body) :
    Alike SameClass (openClass name bases body) (openClass name (placelessExprs bases) body') := by
  refine (alike_fieldVariables _ _ h.symm).bind fun own own' hown => ?_
  refine alike_get_bind fun s pending hoisted _ _ => ?_
  have hbases : ((placelessExprs bases).map fun base =>
        (base.dotted?.bind fun base => s.classFields.lookup base).getD []) =
      bases.map fun base => (base.dotted?.bind fun base => s.classFields.lookup base).getD [] := by
    rw [placelessExprs_eq, List.map_map]
    exact List.map_congr_left fun base _ => by simp
  have hall := hown.names
  dsimp only
  rw [hbases, ← hall]
  exact alike_modify_classFields.next fun _ => .pure ⟨hown, rfl⟩

theorem alike_fieldAt {modifiers : List String} {v : VariableId} {initializer initializer' : Option Tree}
    (h : initializer.map Tree.placeless = initializer'.map Tree.placeless) :
    Alike SameTree (fieldAt r modifiers name v initializer) (fieldAt r' modifiers name v initializer') := by
  refine alike_get_bind fun s pending hoisted _ _ => alike_qualified.next fun q => .pure ?_
  refine congrArg (Tree.node default) ?_
  simp only [Shape.placeless, placelessSome_eq, h]

theorem assignedFields_cons (c : OpenClass) (r : Range) (emitted : List String)
    (initializer : Option Tree) (name : String) (rest : List String) :
    assignedFields c r emitted initializer (name :: rest) =
      if emitted.contains name then assignedFields c r emitted initializer rest
      else (c.ownField? name).elim (assignedFields c r emitted initializer rest) fun v => do
        let node ← fieldAt r [] name v initializer
        let others ← assignedFields c r (name :: emitted) none rest
        return (node :: others.1, others.2) := by
  rw [assignedFields]
  split
  · next f v hmem hv =>
    have hfound : c.ownField? name = some v := congrArg (Option.map Prod.snd) hv
    rw [hmem, hfound]
    rfl
  · next hother =>
    split
    · rfl
    · next hmem =>
      rcases hv : c.ownField? name with _ | v
      · rfl
      · obtain ⟨⟨f, _⟩, hfound, rfl⟩ := Option.map_eq_some_iff.mp hv
        exact (hother f _ (Bool.not_eq_true _ ▸ hmem) hfound).elim

theorem alike_assignedFields {c c' : OpenClass} (hc : SameClass c c') : (names : List String) →
    {emitted : List String} → {initializer initializer' : Option Tree} →
    initializer.map Tree.placeless = initializer'.map Tree.placeless →
    Alike (fun p q => SameTrees p.1 q.1 ∧ p.2 = q.2) (assignedFields c r emitted initializer names)
      (assignedFields c' r' emitted initializer' names)
  | [], _, _, _, _ => .pure ⟨rfl, rfl⟩
  | name :: rest, emitted, initializer, initializer', h => by
    rw [assignedFields_cons, assignedFields_cons, ← hc.ownField? name]
    split
    · exact alike_assignedFields hc rest h
    · rcases c.ownField? name with _ | v
      · exact alike_assignedFields hc rest h
      · exact (alike_fieldAt h).bind fun _ _ ht => (alike_assignedFields hc rest rfl).bind
          fun _ _ hp => .pure ⟨SameTrees.cons ht hp.1, hp.2⟩

theorem alike_remainingFields {emitted : List String} : (own own' : List (Field × VariableId)) →
    SameFields own own' → Alike SameTrees (remainingFields emitted own) (remainingFields emitted own')
  | [], [], _ => .pure rfl
  | (f, v) :: rest, (f', v') :: rest', h => by
    obtain ⟨hhead, rfl, hrest⟩ := SameFields.cons_iff.mp h
    have hname : f.name = f'.name := (congrArg Binding.name hhead :)
    rw [remainingFields, remainingFields, hname]
    split
    · exact alike_remainingFields rest rest' hrest
    · exact alike_cons (alike_fieldAt rfl) (alike_remainingFields rest rest' hrest)
  | [], _ :: _, h | _ :: _, [], h => nomatch h

theorem isDisposable_spread (body : List Stmt) :
    isDisposable (spreadAll split body) = isDisposable body := by
  induction body with
  | nil => rfl
  | cons s rest ih =>
    simp only [isDisposable] at ih
    rw [spreadAll, isDisposable, List.any_cons, ih, isDisposable, List.any_cons]
    congr 1
    cases s
    case withResources r resources body =>
      obtain ⟨first, inner, h⟩ := exists_spread_withResources r resources body
      rw [h]
    all_goals rfl

theorem alike_classNode (h : SameTrees ts ts') :
    Alike SameTree (classNode r name body ts) (classNode r' name (spreadAll split body) ts') := by
  refine alike_qualified.next fun q => .pure (congrArg (Tree.node default) ?_)
  simp only [isDisposable_spread, Shape.placeless, placelessAll_eq, h]

/-! ## Functions -/

theorem modifiers_placeless (signature : Signature) :
    signature.placeless.modifiers = signature.modifiers := by
  rw [Signature.modifiers, decoratorNames_placeless, Signature.modifiers]
  rfl

theorem receiver_placeless (signature : Signature) (fields : Names) :
    signature.placeless.receiver fields = signature.receiver fields := by
  have hhead : signature.placeless.parameters.head?.map Parameter.name =
      signature.parameters.head?.map Parameter.name := by
    rw [Signature.placeless]
    rcases signature.parameters with _ | ⟨⟨⟩, _⟩ <;> rfl
  simp only [Signature.receiver, decoratorNames_placeless, hhead]

theorem alike_methodNode {signature : Signature} {fields : Option Names} {x y : Build (List Tree)}
    (h : Alike SameTrees x y) :
    Alike SameTree (methodNode r signature fields x) (methodNode r' signature.placeless fields y) := by
  have hreceiver : fields.map signature.placeless.receiver = fields.map signature.receiver :=
    Option.map_congr fun fields _ => receiver_placeless signature fields
  refine (alike_parameterNames _).next fun parameters => ?_
  rw [hreceiver]
  refine (h.withFrame.withQualifier.withReceiver _).bind fun ts ts' hts =>
    alike_qualified.next fun q => .pure (sameTree_nodeAt ?_)
  rw [modifiers_placeless, Shape.placeless, Shape.placeless, placelessAll_eq, placelessAll_eq, placelessAll_eq,
    hts]
  rfl

theorem alike_functionNode {signature : Signature} {x y : Build (List Tree)} (h : Alike SameTrees x y) :
    Alike SameTree (functionNode r signature x) (functionNode r' signature.placeless y) := by
  refine alike_newVariable.next fun v => alike_bindName.next fun _ =>
    (alike_parameterNames _).next fun parameters => h.withFrame.bind fun ts ts' hts =>
      .pure (sameTree_nodeAt ?_)
  have hlambda : SameTree (nodeAt r (.lambda (parameters.map (·.2)) signature.isAsync ts))
      (nodeAt r' (.lambda (parameters.map (·.2)) signature.placeless.isAsync ts')) :=
    sameTree_nodeAt (by rw [Shape.placeless, Shape.placeless, placelessAll_eq, placelessAll_eq, hts]; rfl)
  rw [Shape.placeless, Shape.placeless, placelessSome, placelessSome, hlambda]

theorem alike_withCaught {caught : Option String} {types : List String} {x y : Build Tree}
    (h : Alike SameTree x y) :
    Alike (fun p q => p.1 = q.1 ∧ SameTree p.2 q.2) (withCaught caught types x)
      (withCaught caught types y) := by
  rcases caught with _ | caught
  · exact h.bind fun _ _ ht => .pure ⟨rfl, ht⟩
  · exact alike_get_bind fun s pending hoisted _ _ => alike_newVariable.next fun v =>
      alike_bindName.next fun _ => h.bind fun _ _ ht => alike_modifyFrame.next fun _ =>
        .pure ⟨rfl, ht⟩

/-! ## Members of classes -/

/-- The initializer that an assignment in a class gives to the field of a single name. -/
def fieldInitializer (emitted : List String) : List Expr → Option Expr → Build (Option Tree)
  | [.name _ id], some value => if emitted.contains id then pure none else some <$> exprNode value
  | _, _ => pure none

theorem alike_fieldInitializer (emitted : List String) (targets : List Expr) (value : Option Expr) :
    Alike (fun t t' => t.map Tree.placeless = t'.map Tree.placeless)
      (fieldInitializer emitted targets value)
      (fieldInitializer emitted (placelessExprs targets) (placelessExpr? value)) := by
  rcases targets with _ | ⟨(_ | _), _ | ⟨_, _⟩⟩ <;> rcases value with _ | value
  case cons.name.nil.some r id =>
    rw [placelessExprs, Expr.placeless, placelessExprs, placelessExpr?, fieldInitializer, fieldInitializer]
    split
    · exact .pure rfl
    · exact (alike_exprNode value).map fun _ _ => congrArg some
  all_goals exact .pure rfl

variable {c c' : OpenClass} {emitted : List String} {rest rest' : List Stmt}

theorem memberNodes_assign_eq (targets : List Expr) (value : Expr) :
    memberNodes locks c emitted (.assign r targets value :: rest) =
      assignedMembers locks c emitted r (fieldInitializer emitted targets (some value))
        (Expr.boundNamesOf targets) rest := by
  by_cases hname : ∃ tr id, targets = [Expr.name tr id]
  · obtain ⟨tr, id, rfl⟩ := hname
    rw [memberNodes, fieldInitializer]
    split <;> rfl
  · rw [memberNodes, fieldInitializer.eq_2]
    · rfl
    · exact fun tr id _ htargets _ => hname ⟨tr, id, htargets⟩
    · exact fun tr id htargets => hname ⟨tr, id, htargets⟩

theorem memberNodes_annotate_eq (target typeHint : Expr) (value : Option Expr) :
    memberNodes locks c emitted (.annotate r target typeHint value :: rest) =
      assignedMembers locks c emitted r (fieldInitializer emitted [target] value)
        target.boundNames rest := by
  by_cases hname : ∃ tr id e, target = Expr.name tr id ∧ value = some e
  · obtain ⟨tr, id, e, rfl, rfl⟩ := hname
    rw [memberNodes, fieldInitializer]
    split <;> rfl
  · rw [memberNodes, fieldInitializer.eq_2]
    · rfl
    · exact fun tr id e htarget hvalue => hname ⟨tr, id, e, (List.cons.inj htarget).1, hvalue⟩
    · exact fun tr id e htarget hvalue => hname ⟨tr, id, e, htarget, hvalue⟩

theorem alike_assignedMembers {x y : Build (Option Tree)} (hc : SameClass c c')
    (hx : Alike (fun t t' => t.map Tree.placeless = t'.map Tree.placeless) x y)
    (hrest : ∀ emitted, Alike SameTrees (memberNodes locks c emitted rest)
      (memberNodes locks c' emitted rest')) (names : List String) :
    Alike SameTrees (assignedMembers locks c emitted r x names rest)
      (assignedMembers locks c' emitted r' y names rest') := by
  refine hx.bind fun t t' ht => (alike_assignedFields hc names ht).bind fun p q ⟨hfields, hemitted⟩ => ?_
  rw [hemitted]
  exact (hrest _).bind fun _ _ hts => .pure (hfields.append hts)

/-! ## Statements -/

theorem alike_blockAt? {r r' : Range} (h : SameTrees ts ts') (hempty : body.isEmpty = body'.isEmpty) :
    (blockAt? r body ts).map Tree.placeless = (blockAt? r' body' ts').map Tree.placeless := by
  rw [blockAt?, blockAt?, hempty]
  split
  · rfl
  · exact congrArg some (sameTree_blockAt h)

theorem isEmpty_spreadAll (split : Range → Bool) (body : List Stmt) :
    body.isEmpty = (spreadAll split body).isEmpty := by
  cases body <;> rfl

/-! ### Statements around statements -/

section Around

variable {condition : Expr} {orElse finalBody : List Stmt} {handlers : List Handler}
  (hbody : Alike SameTrees (stmtsNodes locks body) (stmtsNodes locks (spreadAll split body)))
  (horElse : Alike SameTrees (stmtsNodes locks orElse) (stmtsNodes locks (spreadAll split orElse)))

include hbody horElse

theorem alike_forEach {isAsync : Bool} {target source : Expr} :
    Alike SameTrees (stmtNodes locks (.forEach r isAsync target source body orElse))
      (stmtNodes locks ((Stmt.forEach r isAsync target source body orElse).spread split)) := by
  rw [Stmt.spread, stmtNodes, stmtNodes]
  refine alike_withPending ((alike_exprNode source).bind fun t t' ht => ?_)
  apply (alike_targetNode target).collectPending.bind
  rintro p q ⟨hpending, hu⟩
  refine hbody.bind fun ts ts' hts => horElse.bind
    fun us us' hus => .pure (SameTrees.cons (sameTree_nodeAt ?_) hus)
  have hblock : SameTree (blockAt r body ts) (blockAt default (spreadAll split body) ts') :=
    sameTree_blockAt hts
  simp only [Shape.placeless, placelessAll_eq, hpending, hblock, List.map_cons, hu, ht]

theorem alike_whileLoop :
    Alike SameTrees (stmtNodes locks (.whileLoop r condition body orElse))
      (stmtNodes locks ((Stmt.whileLoop r condition body orElse).spread split)) := by
  rw [Stmt.spread, stmtNodes, stmtNodes]
  refine alike_withPending (hbody.bind fun ts ts' hts => ?_)
  refine (alike_exprNode condition).bind fun t t' ht => horElse.bind
    fun us us' hus => .pure (SameTrees.cons (sameTree_nodeAt ?_) hus)
  have hblock : SameTree (blockAt r body ts) (blockAt default (spreadAll split body) ts') :=
    sameTree_blockAt hts
  simp only [Shape.placeless, placelessAll_eq, hblock, List.map_cons, ht]

theorem alike_choose :
    Alike SameTrees (stmtNodes locks (.choose r condition body orElse))
      (stmtNodes locks ((Stmt.choose r condition body orElse).spread split)) := by
  rw [Stmt.spread, stmtNodes, stmtNodes]
  refine alike_withPending ((alike_exprNode condition).bind fun t t' ht => ?_)
  refine hbody.bind fun ts ts' hts => horElse.bind
    fun us us' hus => .pure (SameTree.singleton (sameTree_nodeAt ?_))
  have hblock : SameTree (blockAt r body ts) (blockAt default (spreadAll split body) ts') :=
    sameTree_blockAt hts
  have helse : (blockAt? r orElse us).map Tree.placeless =
      (blockAt? default (spreadAll split orElse) us').map Tree.placeless :=
    alike_blockAt? hus (isEmpty_spreadAll split orElse)
  simp only [Shape.placeless, placelessSome_eq, hblock, helse, ht]

theorem alike_guarded
    (hhandlers : Alike SameTrees (handlerNodes locks handlers)
      (handlerNodes locks (spreadHandlers split handlers)))
    (hfinal : Alike SameTrees (stmtsNodes locks finalBody)
      (stmtsNodes locks (spreadAll split finalBody))) :
    Alike SameTrees (stmtNodes locks (.guarded r body handlers orElse finalBody))
      (stmtNodes locks ((Stmt.guarded r body handlers orElse finalBody).spread split)) := by
  rw [Stmt.spread, stmtNodes, stmtNodes]
  refine alike_withPending (hbody.bind fun ts ts' hts => ?_)
  refine hhandlers.bind fun catches catches' hcatches => hfinal.bind fun us us' hus => ?_
  refine horElse.bind fun rest rest' hrest => .pure (SameTrees.cons (sameTree_nodeAt ?_) hrest)
  have hblock : SameTree (blockAt r body ts) (blockAt default (spreadAll split body) ts') :=
    sameTree_blockAt hts
  have hfinally : (blockAt? r finalBody us).map Tree.placeless =
      (blockAt? default (spreadAll split finalBody) us').map Tree.placeless :=
    alike_blockAt? hus (isEmpty_spreadAll split finalBody)
  simp only [Shape.placeless, placelessAll_eq, placelessSome_eq, hblock, hcatches, hfinally]

end Around

/-! ### All statements -/

mutual

/-- **A statement with one resource at a time** becomes the same nodes, if its classes keep their
fields. -/
theorem alike_stmtNodes : (s : Stmt) → KeepFields split (levels s) →
    Alike SameTrees (stmtNodes locks s) (stmtNodes locks (s.spread split))
  | .function r signature body, h => by
    rw [levels, keepFields_cons] at h
    rw [Stmt.spread, stmtNodes, stmtNodes]
    exact alike_withPending (alike_functionNode (alike_stmtsNodes body h.2)).single
  | .classType r name bases body, h => by
    rw [levels, keepFields_cons] at h
    have hfields : fieldsOf (spreadAll split body) = fieldsOf body := h.1 _ (List.mem_singleton_self _)
    rw [Stmt.spread, stmtNodes, stmtNodes]
    refine alike_withPending ((alike_openClass hfields).bind fun c c' hc => ?_)
    refine (alike_memberNodes body h.2 hc).withQualifier.bind fun ts ts' hts => ?_
    exact (alike_classNode hts).bind fun t t' ht => (alike_addHoisted ht).next fun _ =>
      alike_newVariable.next fun v => alike_bindName.next fun _ =>
        .pure (SameTree.singleton (sameTree_nodeAt rfl))
  | .returnValue r none, _ => by
    rw [Stmt.spread, placelessExpr?, stmtNodes, stmtNodes]
    exact .pure (SameTree.singleton (sameTree_nodeAt rfl))
  | .returnValue r (some value), _ => by
    rw [Stmt.spread, placelessExpr?, stmtNodes, stmtNodes]
    refine alike_withPending ((alike_exprNode value).bind fun t t' ht => .pure ?_)
    exact SameTree.singleton (sameTree_nodeAt (by simp only [Shape.placeless, placelessSome, ht]))
  | .assign r targets value, _ => by
    rw [Stmt.spread, stmtNodes, stmtNodes]
    exact alike_withPending (alike_assignNodes targets value)
  | .augment r target op value, _ => by
    rw [Stmt.spread, stmtNodes, stmtNodes]
    exact alike_withPending ((alike_exprNode target).bind fun _ _ ht => (alike_exprNode value).bind
      fun _ _ hu => .pure (SameTree.singleton (sameTree_assignment ht hu)))
  | .annotate r target typeHint value, _ => by
    rw [Stmt.spread, stmtNodes, stmtNodes]
    exact alike_withPending (alike_annotateNodes target typeHint value)
  | .forEach r isAsync target source body orElse, h => by
    rw [levels, keepFields_cons, keepFields_sideBySide] at h
    exact alike_forEach (alike_stmtsNodes body h.2.1) (alike_stmtsNodes orElse h.2.2)
  | .whileLoop r condition body orElse, h => by
    rw [levels, keepFields_cons, keepFields_sideBySide] at h
    exact alike_whileLoop (alike_stmtsNodes body h.2.1) (alike_stmtsNodes orElse h.2.2)
  | .choose r condition body orElse, h => by
    rw [levels, keepFields_cons, keepFields_sideBySide] at h
    exact alike_choose (alike_stmtsNodes body h.2.1) (alike_stmtsNodes orElse h.2.2)
  | .withResources r resources body, h => by
    rw [levels, keepFields_cons] at h
    rw [Stmt.spread]
    split
    · next hsplit =>
      exact alike_nest (alike_stmtsNodes body h.2) resources (Bool.and_eq_true_iff.mp hsplit).2
    · exact alike_withResources (alike_stmtsNodes body h.2) resources
  | .matchCases r subject cases, h => by
    rw [levels, keepFields_cons, keepFields_cons] at h
    rw [Stmt.spread, stmtNodes, stmtNodes]
    exact alike_withPending (alike_append (alike_simpleNodes "match" [subject])
      (alike_caseNodes cases h.2.2))
  | .throwError r error cause, _ => by
    rw [Stmt.spread, stmtNodes, stmtNodes]
    exact alike_withPending (alike_throwNodes error cause)
  | .guarded r body handlers orElse finalBody, h => by
    simp only [levels, keepFields_cons, keepFields_sideBySide] at h
    obtain ⟨-, ⟨⟨hbody, -, hhandlers⟩, helse⟩, hfinal⟩ := h
    exact alike_guarded (alike_stmtsNodes body hbody) (alike_stmtsNodes orElse helse)
      (alike_handlerNodes handlers hhandlers) (alike_stmtsNodes finalBody hfinal)
  | .imports r names, _ => by
    rw [Stmt.spread, stmtNodes, stmtNodes]
    exact alike_withPending (alike_importNodes names)
  | .globals r names, _ => by
    rw [Stmt.spread, stmtNodes, stmtNodes]
    exact alike_modifyFrame.next fun _ => .pure rfl
  | .nonlocals r names, _ => by
    rw [Stmt.spread, stmtNodes, stmtNodes]
    exact alike_modifyFrame.next fun _ => .pure rfl
  | .expr r value, _ => by
    rw [Stmt.spread, stmtNodes, stmtNodes]
    exact alike_withPending (alike_exprStatementNodes value)
  | .simple r word operands, _ => by
    rw [Stmt.spread, stmtNodes, stmtNodes]
    exact alike_withPending (alike_simpleNodes word operands)

/-- **Statements with one resource at a time** become the same nodes. -/
theorem alike_stmtsNodes : (body : List Stmt) → KeepFields split (levelsOf body) →
    Alike SameTrees (stmtsNodes locks body) (stmtsNodes locks (spreadAll split body))
  | [], _ => .pure rfl
  | s :: rest, h => by
    rw [levelsOf, keepFields_sideBySide] at h
    rw [spreadAll, stmtsNodes, stmtsNodes]
    exact alike_append (alike_stmtNodes s h.1) (alike_stmtsNodes rest h.2)

theorem alike_caseNodes {r r' : Range} : (cases : List (List Stmt)) → KeepFields split (levelsOfCases cases) →
    Alike SameTrees (caseNodes locks r cases) (caseNodes locks r' (spreadCases split cases))
  | [], _ => .pure rfl
  | body :: rest, h => by
    rw [levelsOfCases, keepFields_sideBySide] at h
    rw [spreadCases, caseNodes, caseNodes]
    exact (alike_stmtsNodes body h.1).bind fun _ _ hts => (alike_caseNodes rest h.2).bind
      fun _ _ hus => .pure (SameTrees.cons (sameTree_blockAt hts) hus)

theorem alike_handlerNodes : (handlers : List Handler) → KeepFields split (levelsOfHandlers handlers) →
    Alike SameTrees (handlerNodes locks handlers) (handlerNodes locks (spreadHandlers split handlers))
  | [], _ => .pure rfl
  | .mk r type name body :: rest, h => by
    rw [levelsOfHandlers, keepFields_sideBySide] at h
    rw [spreadHandlers, handlerNodes, handlerNodes, Expr.handledTypes_placeless]
    split
    · exact alike_throw
    · have hblock : Alike SameTree (do return blockAt r body (← stmtsNodes locks body))
          (do return blockAt default (spreadAll split body) (← stmtsNodes locks (spreadAll split body))) :=
        (alike_stmtsNodes body h.1).bind fun _ _ hts => .pure (sameTree_blockAt hts)
      refine (alike_withCaught hblock).bind fun p q ⟨hv, hb⟩ => (alike_handlerNodes rest h.2).bind
        fun ts ts' hts => .pure (SameTrees.cons (sameTree_nodeAt ?_) hts)
      simp only [Shape.placeless, hv, hb]

/-- **Members of a class with one resource at a time** become the same nodes. -/
theorem alike_memberNodes : (body : List Stmt) → KeepFields split (levelsOf body) → {c c' : OpenClass} →
    SameClass c c' → {emitted : List String} →
    Alike SameTrees (memberNodes locks c emitted body) (memberNodes locks c' emitted (spreadAll split body))
  | [], _, _, _, hc, _ => alike_remainingFields _ _ hc.own
  | .function r signature body :: rest, h, c, c', hc, emitted => by
    rw [levelsOf, keepFields_sideBySide, levels, keepFields_cons] at h
    rw [spreadAll, Stmt.spread, memberNodes, memberNodes, ← hc.all]
    exact alike_cons (alike_methodNode (alike_stmtsNodes body h.1.2)) (alike_memberNodes rest h.2 hc)
  | .classType r name bases body :: rest, h, c, c', hc, emitted => by
    rw [levelsOf, keepFields_sideBySide, levels, keepFields_cons] at h
    have hfields : fieldsOf (spreadAll split body) = fieldsOf body := h.1.1 _ (List.mem_singleton_self _)
    rw [spreadAll, Stmt.spread, memberNodes, memberNodes]
    refine (alike_openClass hfields).bind fun inner inner' hinner => ?_
    refine (alike_memberNodes body h.1.2 hinner).withQualifier.bind fun ts ts' hts => ?_
    exact (alike_classNode hts).bind fun t t' ht => (alike_memberNodes rest h.2 hc).bind
      fun us us' hus => .pure (SameTrees.cons ht hus)
  | .assign r targets value :: rest, h, c, c', hc, emitted => by
    rw [levelsOf, keepFields_sideBySide] at h
    rw [spreadAll, Stmt.spread, memberNodes_assign_eq, memberNodes_assign_eq, Expr.boundNamesOf_placeless]
    exact alike_assignedMembers hc (alike_fieldInitializer emitted targets (some value))
      (fun _ => alike_memberNodes rest h.2 hc) _
  | .annotate r target typeHint value :: rest, h, c, c', hc, emitted => by
    rw [levelsOf, keepFields_sideBySide] at h
    rw [spreadAll, Stmt.spread, memberNodes_annotate_eq, memberNodes_annotate_eq, Expr.boundNames_placeless]
    exact alike_assignedMembers hc (alike_fieldInitializer emitted [target] value)
      (fun _ => alike_memberNodes rest h.2 hc) _
  | .withResources r resources body :: rest, h, c, c', hc, emitted => by
    rw [levelsOf, keepFields_sideBySide] at h
    obtain ⟨first, inner, hspread⟩ := exists_spread_withResources r resources body
    rw [spreadAll, hspread, memberNodes, memberNodes]
    · exact alike_memberNodes rest h.2 hc
    all_goals nofun
  | .returnValue _ _ :: rest, h, c, c', hc, emitted | .augment _ _ _ _ :: rest, h, c, c', hc, emitted
  | .forEach _ _ _ _ _ _ :: rest, h, c, c', hc, emitted | .whileLoop _ _ _ _ :: rest, h, c, c', hc, emitted
  | .choose _ _ _ _ :: rest, h, c, c', hc, emitted | .matchCases _ _ _ :: rest, h, c, c', hc, emitted
  | .throwError _ _ _ :: rest, h, c, c', hc, emitted | .guarded _ _ _ _ _ :: rest, h, c, c', hc, emitted
  | .imports _ _ :: rest, h, c, c', hc, emitted | .globals _ _ :: rest, h, c, c', hc, emitted
  | .nonlocals _ _ :: rest, h, c, c', hc, emitted | .expr _ _ :: rest, h, c, c', hc, emitted
  | .simple _ _ _ :: rest, h, c, c', hc, emitted => by
    rw [levelsOf, keepFields_sideBySide] at h
    rw [spreadAll, Stmt.spread, memberNodes, memberNodes]
    · exact alike_memberNodes rest h.2 hc
    all_goals nofun

end

end ModelLint.Source
