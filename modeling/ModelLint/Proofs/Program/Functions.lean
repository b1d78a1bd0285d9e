import ModelLint.Proofs.Program.Contexts
import ModelLint.Proofs.Program.Layout

/-!
# Variables of functions

A function is an anonymous function or a method. Front ends resolve names so that what a function
introduces stays inside: nothing outside the function mentions it. Here this is a property of trees
that is put together with the trees, and then read off the unit that is linked from one.

* `Shape.IsFunction`, `Tree.HasFunction`: functions, and those that several trees hold.
* `Tree.Confined`: no variable of a function is mentioned outside it. `Confined.append` and
  `Confined.node` put such trees together.
* `Model.Shows`: a unit has the places of a tree, and nodes there that say the same.
* **`Model.Shows.isPrefix_of_mention`**: in a unit what is mentioned of a function is mentioned below it.
-/

namespace ModelLint

/-- The node is a function: an anonymous one or a method. -/
def Shape.IsFunction {ν : Type} : Shape ν → Prop
  | lambda _ _ _ => True
  | declaration info _ _ _ => info.kind = .method
  | _ => False

theorem Shape.isFunction_label {ν : Type} (s : Shape ν) : s.label.IsFunction ↔ s.IsFunction := by
  cases s <;> rfl

theorem Shape.isStatement_label {ν : Type} (s : Shape ν) : s.label.isStatement = s.isStatement := by
  cases s <;> rfl

theorem Shape.eq_varDeclaration_of_label {ν μ : Type} {s : Shape ν} {s' : Shape μ}
    {v : VariableId} {initializer : Option ν} (h : s.label = s'.label)
    (hs : s = .varDeclaration v initializer) : ∃ initializer', s' = .varDeclaration v initializer' := by
  subst hs
  cases s' <;> simp [label, traverse] at h
  obtain ⟨rfl, -⟩ := h
  exact ⟨_, rfl⟩

theorem Shape.eq_usingStatement_of_label {ν μ : Type} {s : Shape ν} {s' : Shape μ}
    {resources : List ν} {body : Option ν} (h : s.label = s'.label)
    (hs : s = .usingStatement resources body) :
    ∃ resources' body', s' = .usingStatement resources' body' ∧
      resources'.length = resources.length ∧ body'.isSome = body.isSome := by
  subst hs
  cases s' <;> simp [label, traverse] at h
  next resources' body' =>
    refine ⟨resources', body', rfl, h.1.symm, ?_⟩
    cases body <;> cases body' <;> simp at h ⊢

theorem Graph.mentioned?_eq (g : Graph) (n : NodeId) : g.mentioned? n = (g.shape n).mention? := by
  rw [mentioned?]
  cases g.shape n <;> rfl

/-- Statements stand directly below statements and functions only. -/
def Shape.Calm (s : Shape Tree) : Prop :=
  s.isStatement = false → ¬ s.IsFunction → ∀ c ∈ s.children, c.shape.isStatement = false

namespace Tree

variable {n k : Nat} {ts us : List Tree} {t f a b : Tree} {l : Location} {s : Shape Tree}
  {p q : Graph.Place} {v : VariableId}

theorem sums_node (g : Shape Tree → Nat) (l : Location) (s : Shape Tree) :
    sums g [node l s] = g s + sums g s.children := by
  rw [sums_cons, sums_nil, Nat.add_zero, sum_eq]
  rfl

theorem at?_append (h : t.at? p = some a) : t.at? (p ++ q) = a.at? q := by
  induction p generalizing t with
  | nil =>
    cases h
    rfl
  | cons i p ih =>
    obtain ⟨c, hc, hp⟩ := at?_cons_eq_some.mp h
    rw [List.cons_append, at?_cons, hc, Option.bind_some, ih hp]

/-! ## Functions in trees -/

/-- One of the trees is or holds a function. -/
def HasFunction (ts : List Tree) (f : Tree) : Prop :=
  f.shape.IsFunction ∧ ∃ t ∈ ts, ∃ p, t.at? p = some f

/-- A function of the trees, or something in it, introduces a variable. -/
def InFunction (ts : List Tree) (v : VariableId) : Prop :=
  ∃ f, HasFunction ts f ∧ 0 < f.sum (Shape.introductions v)

theorem hasFunction_nil : ¬ HasFunction [] f := fun ⟨_, _, ht, _⟩ => nomatch ht

theorem hasFunction_append : HasFunction (ts ++ us) f ↔ HasFunction ts f ∨ HasFunction us f := by
  simp only [HasFunction, List.mem_append, or_and_right, exists_or, and_or_left]

theorem HasFunction.mono (h : HasFunction ts f) (hts : ts ⊆ us) : HasFunction us f :=
  let ⟨hf, t, ht, hp⟩ := h
  ⟨hf, t, hts ht, hp⟩

theorem hasFunction_node :
    HasFunction [node l s] f ↔ f = node l s ∧ s.IsFunction ∨ HasFunction s.children f := by
  constructor
  · rintro ⟨hf, t, ht, _ | ⟨i, p⟩, hp⟩
    · cases List.mem_singleton.mp ht
      cases hp
      exact .inl ⟨rfl, hf⟩
    · cases List.mem_singleton.mp ht
      obtain ⟨c, hc, hp⟩ := at?_cons_eq_some.mp hp
      exact .inr ⟨hf, c, List.mem_of_getElem? hc, p, hp⟩
  · rintro (⟨rfl, hf⟩ | ⟨hf, c, hc, p, hp⟩)
    · exact ⟨hf, _, List.mem_singleton_self _, [], rfl⟩
    · obtain ⟨i, hi⟩ := List.mem_iff_getElem?.mp hc
      exact ⟨hf, _, List.mem_singleton_self _, i :: p, at?_cons_eq_some.mpr ⟨c, hi, hp⟩⟩

theorem HasFunction.sum_le {g : Shape Tree → Nat} (h : HasFunction ts f) : f.sum g ≤ sums g ts :=
  let ⟨_, _, ht, _, hp⟩ := h
  (sum_le_of_at? hp).trans (le_sums ht)

theorem InFunction.sums_pos (h : InFunction ts v) : 0 < sums (Shape.introductions v) ts :=
  let ⟨_, hf, hv⟩ := h
  Nat.lt_of_lt_of_le hv hf.sum_le

theorem InFunction.mono (h : InFunction ts v) (hts : ts ⊆ us) : InFunction us v :=
  let ⟨f, hf, hv⟩ := h
  ⟨f, hf.mono hts, hv⟩

theorem inFunction_append : InFunction (ts ++ us) v ↔ InFunction ts v ∨ InFunction us v := by
  simp only [InFunction, hasFunction_append, or_and_right, exists_or]

/-- What is in a function of a tree is in the tree itself, if that is a function, or in a function of
its children. -/
theorem inFunction_node (h : InFunction [node l s] v) :
    s.IsFunction ∧ 0 < (node l s).sum (Shape.introductions v) ∨ InFunction s.children v := by
  obtain ⟨f, hf, hv⟩ := h
  rcases hasFunction_node.mp hf with ⟨rfl, hs⟩ | hf
  · exact .inl ⟨hs, hv⟩
  · exact .inr ⟨f, hf, hv⟩

/-! ## Confined variables -/

/-- Statements below what is no statement stand in a function. -/
theorem exists_function_of_isStatement (h : t.All Shape.Calm) (ht : t.shape.isStatement = false)
    (ha : t.at? p = some a) (hstatement : a.shape.isStatement = true) :
    ∃ q f, q <+: p ∧ q ≠ p ∧ t.at? q = some f ∧ f.shape.IsFunction := by
  induction p generalizing t with
  | nil =>
    cases ha
    rw [ht] at hstatement
    cases hstatement
  | cons i p ih =>
    obtain ⟨hcalm, hchildren⟩ := all_iff.mp h
    by_cases hfunction : t.shape.IsFunction
    · exact ⟨[], t, List.nil_prefix, (List.cons_ne_nil i p).symm, rfl, hfunction⟩
    · obtain ⟨c, hc, ha⟩ := at?_cons_eq_some.mp ha
      have hmem : c ∈ t.children := List.mem_of_getElem? hc
      obtain ⟨q, f, hq, hne, hf, hfun⟩ := ih (hchildren c hmem) (hcalm ht hfunction c hmem) ha
      exact ⟨i :: q, f, List.prefix_cons_inj i |>.mpr hq, fun heq => hne (List.tail_eq_of_cons_eq heq),
        at?_cons_eq_some.mpr ⟨c, hc, hf⟩, hfun⟩

/-- **Functions keep their variables to themselves**: what is introduced in a function of the trees
has at least the given number, and it is mentioned in that function only. -/
def Confined (n : Nat) (ts : List Tree) : Prop :=
  ∀ f, HasFunction ts f → ∀ v, 0 < f.sum (Shape.introductions v) →
    n ≤ v ∧ sums (Shape.mentions v) ts = f.sum (Shape.mentions v)

theorem confined_nil : Confined n [] := fun _ hf => absurd hf hasFunction_nil

theorem Confined.le_of_inFunction (h : Confined n ts) (hv : InFunction ts v) : n ≤ v :=
  let ⟨f, hf, hv⟩ := hv
  (h f hf v hv).1

theorem Confined.mono (h : Confined n ts) (hk : k ≤ n) : Confined k ts :=
  fun f hf v hv => ⟨hk.trans (h f hf v hv).1, (h f hf v hv).2⟩

theorem Confined.perm (h : Confined n ts) (hts : ts.Perm us) : Confined n us := fun f hf v hv => by
  rw [← sums_perm hts]
  exact h f (hf.mono hts.symm.subset) v hv

theorem Confined.append (hts : Confined n ts) (hus : Confined n us)
    (hleft : ∀ v, InFunction ts v → sums (Shape.mentions v) us = 0)
    (hright : ∀ v, InFunction us v → sums (Shape.mentions v) ts = 0) : Confined n (ts ++ us) := by
  intro f hf v hv
  rw [sums_append]
  rcases hasFunction_append.mp hf with hf | hf
  · obtain ⟨hle, hmentions⟩ := hts f hf v hv
    exact ⟨hle, by rw [hleft v ⟨f, hf, hv⟩, hmentions, Nat.add_zero]⟩
  · obtain ⟨hle, hmentions⟩ := hus f hf v hv
    exact ⟨hle, by rw [hright v ⟨f, hf, hv⟩, hmentions, Nat.zero_add]⟩

theorem Confined.node (h : Confined n s.children) (hmention : s.children = [] ∨ s.mention? = none)
    (hfresh : s.IsFunction → ∀ v, 0 < (node l s).sum (Shape.introductions v) → n ≤ v) :
    Confined n [node l s] := by
  intro f hf v hv
  rw [sums_cons, sums_nil, Nat.add_zero]
  rcases hasFunction_node.mp hf with ⟨rfl, hs⟩ | hf
  · exact ⟨hfresh hs v hv, rfl⟩
  · obtain ⟨hle, hmentions⟩ := h f hf v hv
    refine ⟨hle, ?_⟩
    rcases hmention with hnil | hnone
    · rw [hnil] at hf
      exact absurd hf hasFunction_nil
    · rw [sum_eq, ← hmentions]
      simp [shape, children, Shape.mentions, hnone]

theorem add_sum_le_of_at? {g : Shape Tree → Nat} (ha : t.at? p = some a) (hb : t.at? q = some b)
    (hpq : ¬ p <+: q) : a.sum g + g b.shape ≤ t.sum g := by
  induction p generalizing t q with
  | nil => exact absurd List.nil_prefix hpq
  | cons i p ih =>
    obtain ⟨c, hc, ha⟩ := at?_cons_eq_some.mp ha
    have hac := sum_le_of_at? (f := g) ha
    rw [sum_eq t]
    rcases q with _ | ⟨j, q⟩
    · cases hb
      have := le_sums (f := g) (List.mem_of_getElem? hc)
      omega
    · obtain ⟨d, hd, hb⟩ := at?_cons_eq_some.mp hb
      have hbd := le_sum_of_at? (f := g) hb
      rcases Nat.lt_trichotomy i j with hij | rfl | hij
      · have := add_le_sums (f := g) hij hc hd
        omega
      · cases hc.symm.trans hd
        have := ih ha hb fun hp => hpq (List.prefix_cons_inj i |>.mpr hp)
        have := le_sums (f := g) (List.mem_of_getElem? hc)
        omega
      · have := add_le_sums (f := g) hij hd hc
        omega

/-- If a tree mentions a variable no more often than a part of it, what mentions it is below the part. -/
theorem isPrefix_of_mention (hf : t.at? p = some f)
    (heq : t.sum (Shape.mentions v) = f.sum (Shape.mentions v)) (ha : t.at? q = some a)
    (hmention : a.shape.mention? = some v) : p <+: q := by
  by_contra hpq
  have hle := add_sum_le_of_at? (g := Shape.mentions v) hf ha hpq
  rw [heq, Shape.mentions, if_pos hmention] at hle
  omega

theorem Confined.isPrefix_of_mention (h : Confined n [t]) (hf : t.at? p = some f)
    (hfunction : f.shape.IsFunction) (hv : 0 < f.sum (Shape.introductions v))
    (ha : t.at? q = some a) (hmention : a.shape.mention? = some v) : p <+: q := by
  obtain ⟨-, heq⟩ := h f ⟨hfunction, t, List.mem_singleton_self t, p, hf⟩ v hv
  rw [sums_cons, sums_nil, Nat.add_zero] at heq
  exact Tree.isPrefix_of_mention hf heq ha hmention

end Tree

/-! ## Functions on paths -/

namespace Graph

variable {g : Graph} {root n m a : NodeId} {p q : Place}

theorem above_append (h : g.at? n p = some m) : g.above n (p ++ q) = g.above n p ++ g.above m q := by
  induction p generalizing n with
  | nil =>
    cases h
    rfl
  | cons i p ih =>
    obtain ⟨c, hc, hp⟩ := Option.bind_eq_some_iff.mp (at?_cons ▸ h)
    rw [List.cons_append, above, above, hc, Option.map_some, Option.map_some, Option.getD_some,
      Option.getD_some, ih hp, List.cons_append]

theorem mem_above_of_isPrefix (h : g.at? n p = some m) (hpq : p <+: q) (hne : p ≠ q) :
    m ∈ g.above n q := by
  obtain ⟨r, rfl⟩ := hpq
  rcases r with _ | ⟨i, r⟩
  · exact absurd (List.append_nil p).symm hne
  · rw [above_append h]
    exact List.mem_append_right _ List.mem_cons_self

theorem Rooted.mem_preorder_iff (hg : g.Rooted root) (hn : g.at? root p = some n) :
    m ∈ g.preorder n ↔ ∃ q, g.at? n q = some m := by
  rw [preorder, mem_preorderTo]
  refine ⟨fun h => h.imp fun q hq => hq.2, fun h => h.imp fun q hq => ⟨?_, hq⟩⟩
  have hat : g.at? root (p ++ q) = some m := by rw [at?_append, hn, Option.bind_some, hq]
  have hlength := hg.length_lt hat
  rw [List.length_append] at hlength
  omega

theorem Rooted.mem_preorder_iff_above (hg : g.Rooted root) (hn : g.at? root p = some n)
    (hm : g.at? root q = some m) : m ∈ g.preorder n ↔ m = n ∨ n ∈ g.above root q := by
  rw [hg.mem_preorder_iff hn]
  constructor
  · rintro ⟨r, hr⟩
    obtain rfl : q = p ++ r :=
      hg.place_unique _ _ m hm (by rw [at?_append, hn, Option.bind_some, hr])
    rcases r with _ | ⟨i, r⟩
    · cases hr
      exact .inl rfl
    · exact .inr (mem_above_of_isPrefix hn (List.prefix_append _ _) (by simp))
  · rintro (rfl | hmem)
    · exact ⟨[], rfl⟩
    · obtain ⟨before, after, heq⟩ := List.append_of_mem hmem
      obtain ⟨p', i, r, rfl, hp', -⟩ := split_above hm heq
      rw [at?_append, hp', Option.bind_some] at hm
      exact ⟨i :: r, hm⟩

theorem exists_innermost_of {path : List NodeId} {P : NodeId → Prop} (h : ∃ b ∈ path, P b) :
    ∃ d before, Innermost path P d before := by
  induction path using List.reverseRecOn with
  | nil => exact absurd h (by simp)
  | append_singleton path b ih =>
    by_cases hb : P b
    · exact ⟨b, path, hb, [], rfl, fun _ ha => nomatch ha⟩
    · obtain ⟨c, hc, hP⟩ := h
      have hpath : c ∈ path := by
        rcases List.mem_append.mp hc with hc | hc
        · exact hc
        · cases List.mem_singleton.mp hc
          exact absurd hP hb
      obtain ⟨d, before, hd, after, rfl, hafter⟩ := ih ⟨c, hpath, hP⟩
      refine ⟨d, before, hd, after ++ [b], by simp, fun x hx => ?_⟩
      rcases List.mem_append.mp hx with hx | hx
      · exact hafter x hx
      · cases List.mem_singleton.mp hx
        exact hb

end Graph

/-! ## Units of trees -/

namespace Model

/-- **A unit shows a tree**: it has the same places, and at each place a node that says the same. -/
structure Shows (m : Model) (vars : Array Variable) (t : Tree) : Prop where
  /-- The unit is linked. -/
  linked : m.Linked
  /-- What the tree has at a place, the unit has there. -/
  exists_node : ∀ p t', t.at? p = some t' →
    ∃ n, m.graph.at? m.root p = some n ∧ (m.graph.shape n).label = t'.shape.label
  /-- What the unit has at a place, the tree has there. -/
  exists_tree : ∀ p n, m.graph.at? m.root p = some n →
    ∃ t', t.at? p = some t' ∧ (m.graph.shape n).label = t'.shape.label
  /-- Every stored node is met. -/
  met : ∀ n < m.graph.nodes.size, ∃ p, m.graph.at? m.root p = some n
  /-- There are as many variables as in the table. -/
  vars_size : m.graph.vars.size = vars.size
  /-- The variables are those of the table, but for their scopes. -/
  variable_eq : ∀ v var, vars[v]? = some var → { m.graph.variable' v with scope := none } =
    { var with scope := none }

variable {m : Model} {vars : Array Variable} {t f : Tree} {n d a : NodeId} {p q r : Graph.Place}
  {v : VariableId}

theorem shows_ofTree (h : ∀ v, 0 < t.sum (Shape.introductions v) → v < vars.size)
    {info : UnitInfo} {declarations : List Tree} (hunit : t.shape = .sourceUnit info declarations)
    (hm : ofTree vars t = .ok m) : m.Shows vars t := by
  obtain ⟨hlinked, hroot, hskeleton⟩ := linked_ofTree h hunit hm
  have hlays := Graph.lays_ofTree vars t
  refine ⟨hlinked, fun p t' ht' => ?_, fun p n hn => ?_, fun n hn => ?_, hskeleton.vars_size,
    fun v var hvar => ?_⟩
  · obtain ⟨n, hn, hlays'⟩ := hlays.at? ht'
    exact ⟨n, by rw [hroot, hskeleton.at?_eq, hn], by rw [hskeleton.shape_eq, hlays'.label_eq]⟩
  · rw [hroot, hskeleton.at?_eq] at hn
    obtain ⟨t', ht', hlays', -⟩ := hlays.exists_at? hn
    exact ⟨t', ht', by rw [hskeleton.shape_eq, hlays'.label_eq]⟩
  · rw [hskeleton.nodes_size, Graph.size_ofTree] at hn
    obtain ⟨p, hp⟩ := hlays.exists_place (Nat.zero_le n) (by omega)
    exact ⟨p, by rw [hroot, hskeleton.at?_eq, hp]⟩
  · rw [hskeleton.variable_eq, Graph.variable', Graph.ofTree, Array.getD_eq_getD_getElem?, hvar,
      Option.getD_some]

/-- What a tree introduces once, its unit introduces once. -/
theorem Shows.introducedOnce (h : m.Shows vars t) (hv : t.sum (Shape.introductions v) = 1) :
    m.IntroducedOnce v := by
  obtain ⟨p, a, ha, hpos⟩ := Tree.sum_pos_iff.mp (by omega : 0 < t.sum (Shape.introductions v))
  obtain ⟨i, hi⟩ := List.mem_iff_getElem?.mp (List.count_pos_iff.mp hpos)
  obtain ⟨n, hn, hlabel⟩ := h.exists_node p a ha
  rw [← Shape.introduced_label, ← hlabel, Shape.introduced_label] at hi
  refine ⟨(p, i), ⟨n, hn, hi⟩, ?_⟩
  rintro ⟨q, j⟩ ⟨k, hk, hj⟩
  obtain ⟨b, hb, hlabel'⟩ := h.exists_tree q k hk
  obtain rfl : p = q := by
    by_contra hne
    have hsum := Tree.add_le_sum_of_at? (f := Shape.introductions v) hne ha hb
    simp only at hj
    rw [← Shape.introduced_label, hlabel', Shape.introduced_label] at hj
    have hposb : 0 < b.shape.introductions v := List.count_pos_iff.mpr (List.mem_of_getElem? hj)
    omega
  cases hn.symm.trans hk
  have hcount : (m.graph.shape n).introduced.count v ≤ 1 := by
    have hle := Tree.le_sum_of_at? (f := Shape.introductions v) ha
    rw [hv] at hle
    rw [← Shape.introduced_label, hlabel, Shape.introduced_label]
    exact hle
  rw [Graph.index_unique hcount hi hj]

theorem Shows.introduced (h : m.Shows vars t) (hn : m.graph.at? m.root p = some n)
    (hf : t.at? p = some f) (hd : m.graph.at? n r = some d)
    (hv : v ∈ (m.graph.shape d).introduced) : 0 < f.sum (Shape.introductions v) := by
  have hat : m.graph.at? m.root (p ++ r) = some d := by
    rw [Graph.at?_append, hn, Option.bind_some, hd]
  obtain ⟨t', ht', hlabel⟩ := h.exists_tree _ _ hat
  rw [← Shape.introduced_label, hlabel, Shape.introduced_label] at hv
  rw [Tree.at?_append hf] at ht'
  exact Tree.sum_pos_iff.mpr ⟨r, t', ht', List.count_pos_iff.mpr hv⟩

theorem Shows.exists_function (h : m.Shows vars t) (hcalm : t.All Shape.Calm)
    (ht : t.shape.isStatement = false) (hn : m.graph.at? m.root p = some n)
    (hstatement : (m.graph.shape n).isStatement = true) :
    ∃ a ∈ m.graph.above m.root p, (m.graph.shape a).IsFunction := by
  obtain ⟨t', ht', hlabel⟩ := h.exists_tree _ _ hn
  rw [← Shape.isStatement_label, hlabel, Shape.isStatement_label] at hstatement
  obtain ⟨q, f, hq, hne, hf, hfunction⟩ :=
    Tree.exists_function_of_isStatement hcalm ht ht' hstatement
  obtain ⟨a, ha, hlabel'⟩ := h.exists_node _ _ hf
  refine ⟨a, Graph.mem_above_of_isPrefix ha hq hne, ?_⟩
  rwa [← Shape.isFunction_label, hlabel', Shape.isFunction_label]

/-- **A variable of a function is mentioned below the function only.** -/
theorem Shows.isPrefix_of_mention (h : m.Shows vars t) {k : Nat} (hconfined : Tree.Confined k [t])
    (hn : m.graph.at? m.root p = some n) (hfunction : (m.graph.shape n).IsFunction)
    (hd : m.graph.at? n r = some d) (hv : v ∈ (m.graph.shape d).introduced)
    (ha : m.graph.at? m.root q = some a) (hmention : (m.graph.shape a).mention? = some v) :
    p <+: q := by
  obtain ⟨f, hf, hlabel⟩ := h.exists_tree _ _ hn
  obtain ⟨b, hb, hlabel'⟩ := h.exists_tree _ _ ha
  rw [← Shape.isFunction_label, hlabel, Shape.isFunction_label] at hfunction
  rw [← Shape.mention?_label, hlabel', Shape.mention?_label] at hmention
  exact hconfined.isPrefix_of_mention hf hfunction (h.introduced hn hf hd hv) hb hmention

end Model

end ModelLint
