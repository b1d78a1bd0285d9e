import ModelLint.Proofs.Source.Steps

/-!
# Blocks inside statements

A statement holds blocks, and their statements hold others. While the nodes of a statement are built,
so are those of each of its blocks, in the same frame: it passes through them (`Passes`). The events in
front of a block are those of the parts that are built before it.

* `leaps_exprNode`, `leaps_stmtsNodes`: the parts of a statement lead by their events.
* `Block`: the blocks of a statement, with the events on both sides.
* `Own`: a statement among others or in their blocks, but in no function or class inside.
* `passes_block`, **`passes_own`**: what is built on the way.
-/

namespace ModelLint.Source

open Build

variable {α β : Type} {o : Option String} {r : Range} {locks : List String} {s s' : Building}
  {es fs es' fs' : List Event} {stmt w : Stmt} {body : List Stmt}

/-! ## Parts of statements -/

theorem leaps_exprNode (e : Expr) : Leaps o (exprNode e) (e.events o) :=
  (traces_exprNode e).leaps fun _ hs => exprNode_runs_of_inside (hs.inside _)

theorem leaps_targetNode (e : Expr) : Leaps o (targetNode e) (targetEvents o e) :=
  (traces_targetNode e).leaps fun _ hs => targetNode_runs e (hs.inside _)

theorem leaps_heldResources (resources : List Resource) :
    Leaps o (heldResources locks resources) (resourceEvents o resources) :=
  (traces_heldResources resources).leaps fun _ hs => heldResources_runs resources (hs.inside _)

theorem leaps_simpleNodes {word : String} (operands : List Expr) :
    Leaps o (simpleNodes r word operands) (eventsOf o operands) :=
  (traces_simpleNodes operands).leaps fun _ hs => simpleNodes_runs (hs.inside _)

theorem leaps_stmtNodes (stmt : Stmt) : Leaps o (stmtNodes locks stmt) (stmt.events .built o) :=
  (traces_stmtNodes o stmt).leaps fun _ hs => stmtNodes_runs stmt (hs.inside _) fun _ => trivial

theorem leaps_stmtsNodes (body : List Stmt) :
    Leaps o (stmtsNodes locks body) (eventsIn .built o body) :=
  (traces_stmtsNodes o body).leaps fun _ hs => stmtsNodes_runs body (hs.inside _) fun _ => trivial

theorem leaps_caseNodes (r : Range) (cases : List (List Stmt)) :
    Leaps o (caseNodes locks r cases) (caseEvents .built o cases) :=
  (traces_caseNodes o r cases).leaps fun _ hs => caseNodes_runs r cases (hs.inside _) fun _ => trivial

theorem leaps_handlerNodes (handlers : List Handler) :
    Leaps o (handlerNodes locks handlers) (handlerEvents .built o handlers) :=
  (traces_handlerNodes o handlers).leaps fun _ hs =>
    handlerNodes_runs handlers (hs.inside _) fun _ => trivial

/-! ## Steps of blocks -/

section Passes

variable {y : Build (List Tree)} {x : Build α} {g : α → List Tree}

theorem Passes.cast (hx : Passes o y x es fs g) (hes : es = es') (hfs : fs = fs') :
    Passes o y x es' fs' g :=
  hes ▸ hfs ▸ hx

theorem Passes.block {x : Build (List Tree)} (hx : Passes o y x es fs id) (owner : Range)
    (body : List Stmt) : Passes o y x es fs fun ts => [blockAt owner body ts] :=
  hx.mono fun _ => within_node (by simp [Shape.children, Shape.slots])

theorem extends_bound {name : String} {type : Option String} :
    Extends s.vars (s.bound name type).vars := extends_push s.vars _

theorem Building.Open.bound (h : s.Open) (name : String) (type : Option String) :
    (s.bound name type).Open := by
  have hx : Extends s.vars (s.bound name type).vars := extends_bound
  obtain ⟨frame, outer, hframes⟩ := List.exists_cons_of_ne_nil h.frames
  have hbound : (s.bound name type).frames =
      { frame with names := (name, s.vars.size) :: frame.names } :: outer := by
    simp [Building.bound, hframes]
  refine ⟨h.valid.extends hx (fun f hf e he => ?_) (h.valid.moduleFields.extends hx) rfl rfl rfl rfl,
    by simp [hbound]⟩
  have hold : ∀ f ∈ s.frames, ∀ e ∈ f.names, Denotes (s.bound name type).vars AnyKind e.1 e.2 :=
    fun f hf e he => (h.valid.frames f hf e he).extends hx
  rw [hframes] at hold
  rw [hbound] at hf
  rcases List.mem_cons.mp hf with rfl | hf
  · rcases List.mem_cons.mp he with rfl | he
    · exact ⟨_, Array.getElem?_push_size, rfl, trivial⟩
    · exact hold frame List.mem_cons_self e he
  · exact hold f (List.mem_cons_of_mem _ hf) e he

theorem leads_define {name : String} {type : Option String} (hs : s.Open) :
    Leads [.define name] s (s.bound name type) :=
  have h : Follows (fun _ => True) [.define name] s (s.bound name type) := follows_define
  h.leads hs.valid.bounded extends_bound

theorem Passes.withCaught {x : Build Tree} (hx : Passes o y x es fs fun t => [t])
    (hbuilt : ∀ s : Building, s.Open →
      Runs x s (fun _ => True) fun t s' => Built AnyName True s [t] [] s')
    (caught : Option String) (types : List String) : Passes o y (withCaught caught types x)
      (caught.toList.map .define ++ es) (fs ++ caught.toList.map .define) fun p => [p.2] := by
  rcases caught with _ | name
  · exact (hx.make fun t => within_of_subset (by simp)).cast rfl (List.append_nil fs).symm
  · intro s hs ho
    have hpassage : Runs (Source.withCaught (some name) types x) s (fun _ => True) fun p s' =>
        s'.Open → Passage o y (.define name :: es) (fs ++ [.define name]) [p.2] s s' := by
      refine runs_get_bind (runs_bound fun _ => Runs.bind (hx (s.bound name _) (hs.bound name _) ho)
        fun t s₁ ⟨hs₁, ho₁, hvars, s₂, ts, s₃, hs₂, ho₂, hrun, hes, hfs, hts⟩ => ?_)
      have hnew := extends_bound.trans hvars
      have hrefl : Follows (fun _ => True) [] s₁ s₁ := .refl s₁
      refine Runs.bind (follows_restore hrefl fun _ v hv =>
        Nat.lt_of_lt_of_le (hs.valid.bounded.lt_of_head hv) hnew.size_le)
        fun _ s₄ ⟨h₄, _, hvars₄⟩ => runs_pure fun hs₄ => ?_
      have hrestored := h₄.leads hs₁.valid.bounded (hvars₄ ▸ .refl _)
      refine ⟨hs₄, hrestored.object?.trans ho₁, hnew.trans hrestored.vars, s₂, ts, s₃, hs₂,
        ho₂, hrun, (leads_define hs).trans hes, hfs.trans hrestored, hts⟩
    refine Runs.mono (Runs.and (withCaught_runs hs.valid hs.frames fun s' hs' hne =>
      hbuilt s' ⟨hs', hne⟩) hpassage) fun p s' ⟨⟨h, _⟩, hp⟩ => hp (hs.built h)

end Passes

/-! ## Blocks -/

/-- **A block of a statement**, with the events that are built before it and behind it. -/
inductive Block (o : Option String) : Stmt → List Event → List Stmt → List Event → Prop
  /-- The body of a loop over values. -/
  | forBody (r isAsync target source body orElse) :
    Block o (.forEach r isAsync target source body orElse)
      (source.events o ++ targetEvents o target) body (eventsIn .built o orElse)
  /-- What follows a loop over values. -/
  | forElse (r isAsync target source body orElse) :
    Block o (.forEach r isAsync target source body orElse)
      (source.events o ++ (targetEvents o target ++ eventsIn .built o body)) orElse []
  /-- The body of a loop under a condition. -/
  | whileBody (r condition body orElse) : Block o (.whileLoop r condition body orElse)
      [] body (condition.events o ++ eventsIn .built o orElse)
  /-- What follows a loop under a condition. -/
  | whileElse (r condition body orElse) : Block o (.whileLoop r condition body orElse)
      (eventsIn .built o body ++ condition.events o) orElse []
  /-- What a choice does if the condition holds. -/
  | thenBranch (r condition body orElse) : Block o (.choose r condition body orElse)
      (condition.events o) body (eventsIn .built o orElse)
  /-- What it does otherwise. -/
  | elseBranch (r condition body orElse) : Block o (.choose r condition body orElse)
      (condition.events o ++ eventsIn .built o body) orElse []
  /-- The use of resources. -/
  | resources (r resources body) : Block o (.withResources r resources body)
      (resourceEvents o resources) body []
  /-- A case of a choice by pattern. -/
  | case (r subject before body after) : Block o (.matchCases r subject (before ++ body :: after))
      (subject.events o ++ caseEvents .built o before) body (caseEvents .built o after)
  /-- Statements under guard. -/
  | tryBody (r body handlers orElse finalBody) : Block o (.guarded r body handlers orElse finalBody)
      [] body (handlerEvents .built o handlers ++
        (eventsIn .built o finalBody ++ eventsIn .built o orElse))
  /-- A handler. -/
  | handler (r body before hr type name caught after orElse finalBody) :
    Block o (.guarded r body (before ++ .mk hr type name caught :: after) orElse finalBody)
      (eventsIn .built o body ++ (handlerEvents .built o before ++ name.toList.map .define)) caught
      (name.toList.map .define ++ handlerEvents .built o after ++
        (eventsIn .built o finalBody ++ eventsIn .built o orElse))
  /-- What follows in any case. -/
  | finalBody (r body handlers orElse finalBody) : Block o (.guarded r body handlers orElse finalBody)
      (eventsIn .built o body ++ handlerEvents .built o handlers) finalBody
      (eventsIn .built o orElse)
  /-- What follows where nothing is caught. -/
  | orElse (r body handlers orElse finalBody) : Block o (.guarded r body handlers orElse finalBody)
      (eventsIn .built o body ++ (handlerEvents .built o handlers ++ eventsIn .built o finalBody))
      orElse []

/-- **A statement stands among statements or in their blocks**, with the events that are built before
it and behind it. -/
inductive Own (o : Option String) (w : Stmt) : List Event → List Stmt → List Event → Prop
  /-- It is one of the statements. -/
  | here (before after) :
    Own o w (eventsIn .built o before) (before ++ w :: after) (eventsIn .built o after)
  /-- It stands in a block of one of them. -/
  | inside (before after) {stmt es b fs es' fs'} : Block o stmt es b fs → Own o w es' b fs' →
    Own o w (eventsIn .built o before ++ (es ++ es')) (before ++ stmt :: after)
      (fs' ++ (fs ++ eventsIn .built o after))

theorem eventsIn_append (before after : List Stmt) : eventsIn .built o (before ++ after) =
    eventsIn .built o before ++ eventsIn .built o after := by
  induction before with
  | nil => rfl
  | cons first rest ih => rw [List.cons_append, eventsIn, eventsIn, ih, List.append_assoc]

theorem caseEvents_append (before after : List (List Stmt)) : caseEvents .built o (before ++ after) =
    caseEvents .built o before ++ caseEvents .built o after := by
  induction before with
  | nil => rfl
  | cons first rest ih => rw [List.cons_append, caseEvents, caseEvents, ih, List.append_assoc]

theorem handlerEvents_append (before after : List Handler) :
    handlerEvents .built o (before ++ after) =
      handlerEvents .built o before ++ handlerEvents .built o after := by
  induction before with
  | nil => rfl
  | cons first rest ih =>
    obtain ⟨r, type, name, body⟩ := first
    simp only [List.cons_append, handlerEvents, ih, List.append_assoc]

/-- The events of a statement are those around a block and those of the block. -/
theorem Block.events_eq {b : List Stmt} (h : Block o stmt es b fs) :
    stmt.events .built o = es ++ (eventsIn .built o b ++ fs) := by
  cases h <;> simp [Stmt.events, Order.join, caseEvents_append, caseEvents, handlerEvents_append,
    handlerEvents]

theorem Own.events_eq (h : Own o w es body fs) :
    eventsIn .built o body = es ++ (w.events .built o ++ fs) := by
  induction h with
  | here before after => rw [eventsIn_append, eventsIn]
  | inside before after hblock _ ih =>
    rw [eventsIn_append, eventsIn, hblock.events_eq, ih]
    simp only [List.append_assoc]

theorem passes_stmtsNodes (before after : List Stmt) :
    Passes o (stmtNodes locks stmt) (stmtsNodes locks (before ++ stmt :: after))
      (eventsIn .built o before) (eventsIn .built o after) id := by
  induction before with
  | nil =>
    rw [List.nil_append, stmtsNodes]
    refine (passes_self (leaps_stmtNodes stmt)).left (fun ts => (leaps_stmtsNodes after).last)
      fun ts => .next fun us => .pure (within_of_subset (List.subset_append_left _ _))
  | cons first rest ih =>
    rw [List.cons_append, stmtsNodes, eventsIn]
    exact .right (leaps_stmtNodes first) fun ts =>
      ih.make fun us => within_of_subset (List.subset_append_right _ _)

theorem passes_caseNodes (r : Range) (before after : List (List Stmt)) :
    Passes o (stmtsNodes locks body) (caseNodes locks r (before ++ body :: after))
      (caseEvents .built o before) (caseEvents .built o after) id := by
  induction before with
  | nil =>
    rw [List.nil_append, caseNodes]
    refine ((passes_self (leaps_stmtsNodes body)).block r body).left
      (fun ts => (leaps_caseNodes r after).last) fun ts => .next fun us => .pure ?_
    exact within_of_subset (by simp)
  | cons first rest ih =>
    rw [List.cons_append, caseNodes, caseEvents]
    exact .right (leaps_stmtsNodes first) fun ts =>
      ih.make fun us => within_of_subset (List.subset_cons_self _ _)

theorem within_first {us ts : List Tree} {shape : Shape Tree} (h : us ⊆ shape.children) :
    Within us (nodeAt r shape :: ts) :=
  (within_node h).trans (within_of_subset (List.cons_subset_cons _ (List.nil_subset ts)))

section Handlers

variable {hr : Range} {type : Option Expr} {name : Option String} {types : List String}

theorem runs_caught (hs : s.Open) : Runs (do return blockAt hr body (← stmtsNodes locks body)) s
    (fun _ => True) fun t s' => Built AnyName True s [t] [] s' :=
  (stmtsNodes_runs body (hs.inside _) fun _ => trivial).bind fun _ _ h => runs_pure (h.block hr body)

theorem leaps_caught : Leaps o
    (withCaught name types do return blockAt hr body (← stmtsNodes locks body))
    (name.toList.map .define ++ (eventsIn .built o body ++ name.toList.map .define)) := by
  have hbody : Traces o [] (do return blockAt hr body (← stmtsNodes locks body))
      (eventsIn .built o body) fun t => [t] :=
    ((traces_stmtsNodes o body).block hr body).make fun ts _ hu => hu
  have hbuilt : ∀ s : Building, s.Open → Runs (withCaught name types do
      return blockAt hr body (← stmtsNodes locks body)) s (fun _ => True)
        fun p s' => Built AnyName True s [p.2] p.1.toList s' := fun s hs =>
    (withCaught_runs hs.valid hs.frames fun s' hs' hne => runs_caught ⟨hs', hne⟩).mono
      fun p s' h => h.1
  exact (hbody.withCaught name types).leaps hbuilt

theorem passes_handlerNodes (before after : List Handler) :
    Passes o (stmtsNodes locks body) (handlerNodes locks (before ++ .mk hr type name body :: after))
      (handlerEvents .built o before ++ name.toList.map .define)
      (name.toList.map .define ++ handlerEvents .built o after) id := by
  induction before with
  | nil =>
    rw [List.nil_append, handlerNodes]
    split
    · exact fun _ _ _ => runs_throw trivial
    · next types _ =>
      have hblock : Passes o (stmtsNodes locks body)
          (do return blockAt hr body (← stmtsNodes locks body)) [] [] fun t => [t] :=
        ((passes_self (leaps_stmtsNodes body)).block hr body).make fun ts _ hu => hu
      have hcaught := hblock.withCaught (fun s hs => runs_caught hs) name types
      refine (hcaught.left (fun p => (leaps_handlerNodes after).last)
        fun p => .next fun ts => .pure ?_).cast ?_ rfl
      · exact within_first (by simp [Shape.children, Shape.slots])
      · simp [handlerEvents]
  | cons first rest ih =>
    obtain ⟨fr, ftype, fname, fbody⟩ := first
    rw [List.cons_append, handlerNodes, handlerEvents]
    split
    · exact fun _ _ _ => runs_throw trivial
    · refine Passes.cast (.right leaps_caught fun p => ih.make fun us => ?_) ?_ rfl
      · exact within_of_subset (List.subset_cons_self _ _)
      · simp

end Handlers

theorem passes_block? (owner : Range) (body : List Stmt) :
    Passes o (stmtsNodes locks body) (stmtsNodes locks body) [] [] fun ts =>
      (blockAt? owner body ts).toList := by
  cases body with
  | nil =>
    intro s hs ho
    rw [stmtsNodes]
    exact runs_pure ⟨hs, ho, .refl _, s, [], s, hs, ho, rfl, .refl s, .refl s, within_nil⟩
  | cons first rest => exact (passes_self (leaps_stmtsNodes (first :: rest))).block owner _

/-- **A statement passes through its blocks.** -/
theorem passes_block {b : List Stmt} (h : Block o stmt es b fs) :
    Passes o (stmtsNodes locks b) (stmtNodes locks stmt) es fs id := by
  have hself : Passes o (stmtsNodes locks b) (stmtsNodes locks b) [] [] id :=
    passes_self (leaps_stmtsNodes b)
  have hrest : ∀ {us : List Tree} {t : Tree}, Within us (t :: us) :=
    within_of_subset (List.subset_cons_self _ _)
  cases h with
  | forBody r isAsync target source _ orElse =>
    rw [stmtNodes]
    refine .withPending (.right (leaps_exprNode source) fun t => ?_)
    refine .behind (leaps_targetNode target).collectPending fun p => ?_
    refine (hself.block r b).left (fun ts => (leaps_stmtsNodes orElse).last) fun ts => ?_
    exact .next fun us => .pure (within_first (by simp [Shape.children, Shape.slots]))
  | forElse r isAsync target source body _ =>
    rw [stmtNodes]
    refine .withPending (.right (leaps_exprNode source) fun t => ?_)
    refine .right (leaps_targetNode target).collectPending fun p => ?_
    exact .behind (leaps_stmtsNodes body) fun ts => hself.make fun us => hrest
  | whileBody r condition _ orElse =>
    rw [stmtNodes]
    refine .withPending ((hself.block r b).left (fun ts => (leaps_exprNode condition).bind fun t =>
      (leaps_stmtsNodes orElse).last) fun ts => ?_)
    exact .next fun t => .next fun us => .pure (within_first (by simp [Shape.children, Shape.slots]))
  | whileElse r condition body _ =>
    rw [stmtNodes]
    refine .withPending (.right (leaps_stmtsNodes body) fun ts => ?_)
    exact .behind (leaps_exprNode condition) fun t => hself.make fun us => hrest
  | thenBranch r condition _ orElse =>
    rw [stmtNodes]
    refine .withPending (.behind (leaps_exprNode condition) fun t => ?_)
    refine (hself.block r b).left (fun ts => (leaps_stmtsNodes orElse).last) fun ts => ?_
    exact .next fun us => .pure (within_first (by simp [Shape.children, Shape.slots]))
  | elseBranch r condition body _ =>
    rw [stmtNodes]
    refine .withPending (.right (leaps_exprNode condition) fun t => ?_)
    refine .behind (leaps_stmtsNodes body) fun ts => (passes_block? r b).make fun us => ?_
    exact within_first (by simp [Shape.children, Shape.slots])
  | resources r resources _ =>
    rw [stmtNodes]
    refine .withPending (.behind (leaps_heldResources resources) fun held => ?_)
    refine (hself.block r b).make fun ts => ?_
    exact (within_of_subset (by simp)).trans within_holdAll
  | case r subject before _ after =>
    rw [stmtNodes]
    have hsubject : Leaps o (simpleNodes r "match" [subject]) (subject.events o) := by
      simpa [eventsOf] using leaps_simpleNodes (o := o) (r := r) [subject]
    refine .withPending (.right hsubject fun ts => ?_)
    exact (passes_caseNodes r before after).make fun us => within_of_subset (by simp)
  | tryBody r _ handlers orElse finalBody =>
    rw [stmtNodes]
    refine .withPending ((hself.block r b).left (fun ts => (leaps_handlerNodes handlers).bind
      fun catches => (leaps_stmtsNodes finalBody).bind fun us => (leaps_stmtsNodes orElse).last)
        fun ts => ?_)
    exact .next fun catches => .next fun us => .next fun rest =>
      .pure (within_first (by simp [Shape.children, Shape.slots]))
  | handler r body before hr type name _ after orElse finalBody =>
    rw [stmtNodes]
    refine .withPending (.right (leaps_stmtsNodes body) fun ts => ?_)
    refine (passes_handlerNodes before after).left (fun catches => (leaps_stmtsNodes finalBody).bind
      fun us => (leaps_stmtsNodes orElse).last) fun catches => ?_
    exact .next fun us => .next fun rest =>
      .pure (within_first (by simp [Shape.children, Shape.slots]))
  | finalBody r body handlers orElse _ =>
    rw [stmtNodes]
    refine .withPending (.right (leaps_stmtsNodes body) fun ts => ?_)
    refine .behind (leaps_handlerNodes handlers) fun catches => ?_
    refine (passes_block? r b).left (fun us => (leaps_stmtsNodes orElse).last) fun us => ?_
    exact .next fun rest => .pure (within_first (by simp [Shape.children, Shape.slots]))
  | orElse r body handlers _ finalBody =>
    rw [stmtNodes]
    refine .withPending (.right (leaps_stmtsNodes body) fun ts => ?_)
    refine .right (leaps_handlerNodes handlers) fun catches => ?_
    exact .behind (leaps_stmtsNodes finalBody) fun us => hself.make fun rest => hrest

/-- **Statements pass through those that stand among them or in their blocks.** -/
theorem passes_own (h : Own o w es body fs) :
    Passes o (stmtNodes locks w) (stmtsNodes locks body) es fs id := by
  induction h with
  | here before after => exact passes_stmtsNodes before after
  | inside before after hblock _ ih =>
    exact ((passes_stmtsNodes before after).trans ((passes_block hblock).trans ih)).cast
      rfl (by rw [List.append_assoc])

end ModelLint.Source
