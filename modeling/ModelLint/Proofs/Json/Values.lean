import ModelLint.Json.Reader
import ModelLint.Proofs.Data.Records

/-!
# What JSON texts hold

Every value that is read from a JSON text is one that JSON can have: an entry is put where its key
stands, or behind all entries if no entry has the key.

* `Value.TextKeys.insert`: setting the value under a text keeps keys different texts.
* `Json.Reads`: whatever a part of the reader returns is a value of JSON.
* **`Json.isJson_read?`**: what is read from a text.
-/

namespace ModelLint

/-! ## Entries -/

namespace Value

variable {entries : List (Value × Value)}

theorem sameKey_str (a b : String) : sameKey (.str a) (.str b) = true ↔ a = b := beq_iff_eq

theorem map_fst_insert (name : String) (v : Value) (h : TextKeys entries) :
    (insert (.str name) v entries).map Prod.fst = entries.map Prod.fst ∨
      .str name ∉ entries.map Prod.fst ∧
        (insert (.str name) v entries).map Prod.fst = entries.map Prod.fst ++ [.str name] := by
  induction entries with
  | nil => exact .inr ⟨List.not_mem_nil, rfl⟩
  | cons entry rest ih =>
    obtain ⟨key, old⟩ := entry
    obtain ⟨own, rfl⟩ := h.texts key List.mem_cons_self
    rw [insert]
    split
    · exact .inl rfl
    · next hne =>
      rw [sameKey_str] at hne
      rcases ih h.tail with hrest | ⟨hnew, hrest⟩
      · exact .inl (congrArg (Value.str own :: ·) hrest)
      · refine .inr ⟨?_, congrArg (Value.str own :: ·) hrest⟩
        rw [List.map_cons, List.mem_cons, not_or]
        exact ⟨fun heq => hne (Value.str.inj heq).symm, hnew⟩

theorem TextKeys.insert (name : String) (v : Value) (h : TextKeys entries) :
    TextKeys (Value.insert (.str name) v entries) := by
  rcases map_fst_insert name v h with hsame | ⟨hnew, happend⟩
  · exact h.of_perm (.of_eq hsame.symm)
  · constructor
    · rw [happend, List.forall_mem_append]
      exact ⟨h.texts, List.forall_mem_singleton.mpr ⟨name, rfl⟩⟩
    · rw [happend, ← List.concat_eq_append]
      exact h.nodup.concat hnew

theorem forall_insert {P : Value → Prop} {v : Value} (key : Value) (hv : P v)
    (h : ∀ entry ∈ entries, P entry.2) : ∀ entry ∈ insert key v entries, P entry.2 := by
  induction entries with
  | nil => exact List.forall_mem_singleton.mpr hv
  | cons entry rest ih =>
    rw [List.forall_mem_cons] at h
    rw [insert]
    split
    · exact List.forall_mem_cons.mpr ⟨hv, h.2⟩
    · exact List.forall_mem_cons.mpr ⟨h.1, ih h.2⟩

end Value

/-! ## The reader -/

namespace Json

variable {cs : List Char} {fuel : Nat}

/-- What a part of the reader returns, if it returns something, is a value of JSON. -/
def Reads (result : Option (Value × List Char)) : Prop := ∀ v rest, result = some (v, rest) → v.IsJson

theorem reads_none : Reads none := nofun

theorem reads_some {v : Value} {rest : List Char} (h : v.IsJson) : Reads (some (v, rest)) := by
  rintro _ _ ⟨⟩
  exact h

theorem Reads.or {first second : Option (Value × List Char)} (h : Reads first) (h' : Reads second) :
    Reads (first.or second) := by
  cases first with
  | none => exact h'
  | some found => exact h

theorem reads_word? (cs : List Char) : Reads (word? cs) := by
  have hafter : ∀ (word : String) {v : Value}, v.IsJson →
      Reads (if word.toList.isPrefixOf cs then some (v, cs.drop word.length) else none) := by
    intro word v hv
    split
    · exact reads_some hv
    · exact reads_none
  exact (hafter _ .null).or <| (hafter _ (.bool true)).or <| (hafter _ (.bool false)).or <|
    (hafter _ (.float _)).or <| (hafter _ (.float _)).or (hafter _ (.float _))

theorem reads_number? (negative : Bool) (cs : List Char) : Reads (number? negative cs) := by
  intro v rest h
  obtain ⟨⟨whole, rest'⟩, -, h⟩ := Option.map_eq_some_iff.mp h
  dsimp only at h
  split at h
  · cases h
    exact .float _
  · split at h
    · cases h
      exact .float _
    · cases h
      exact .int _

/-- What is read before the fuel is spent: values, lists behind items of JSON, and maps behind entries
whose keys are different texts. -/
structure ReadsWith (fuel : Nat) : Prop where
  /-- A value. -/
  value : ∀ cs, Reads (value fuel cs)
  /-- A list. -/
  items : ∀ acc cs, (∀ v ∈ acc, v.IsJson) → Reads (items fuel acc cs)
  /-- A map. -/
  entries : ∀ acc cs, Value.TextKeys acc → (∀ entry ∈ acc, entry.2.IsJson) →
    Reads (entries fuel acc cs)

theorem readsWith_zero : ReadsWith 0 where
  value _ := reads_none
  items _ _ _ := reads_none
  entries _ _ _ _ := reads_none

theorem ReadsWith.value_succ (h : ReadsWith fuel) (cs : List Char) :
    Reads (Json.value (fuel + 1) cs) := by
  rw [Json.value.eq_def]
  dsimp only
  split
  · intro v rest hv
    obtain ⟨_, -, hv⟩ := Option.map_eq_some_iff.mp hv
    cases hv
    exact .str _
  · split
    · exact reads_some (.list (List.forall_mem_nil _))
    · exact h.items _ _ (List.forall_mem_nil _)
  · split
    · exact reads_some (.map ⟨by simp, List.nodup_nil⟩ (List.forall_mem_nil _))
    · exact h.entries _ _ ⟨by simp, List.nodup_nil⟩ (List.forall_mem_nil _)
  · exact (reads_word? _).or (reads_number? _ _)
  · exact (reads_word? _).or (reads_number? _ _)

theorem ReadsWith.items_succ (h : ReadsWith fuel) (acc : List Value) (cs : List Char)
    (hacc : ∀ v ∈ acc, v.IsJson) : Reads (Json.items (fuel + 1) acc cs) := by
  intro v rest hv
  rw [Json.items] at hv
  obtain ⟨⟨item, behind⟩, hitem, hv⟩ := Option.bind_eq_some_iff.mp hv
  have hitems : ∀ v ∈ item :: acc, v.IsJson :=
    List.forall_mem_cons.mpr ⟨h.value _ _ _ hitem, hacc⟩
  dsimp only at hv
  split at hv
  · exact h.items _ _ hitems _ _ hv
  · cases hv
    exact .list fun v hv => hitems v (List.mem_reverse.mp hv)
  · cases hv

theorem ReadsWith.entries_succ (h : ReadsWith fuel) (acc : List (Value × Value)) (cs : List Char)
    (hkeys : Value.TextKeys acc) (hacc : ∀ entry ∈ acc, entry.2.IsJson) :
    Reads (Json.entries (fuel + 1) acc cs) := by
  intro v rest hv
  rw [Json.entries] at hv
  split at hv
  · obtain ⟨⟨key, behindKey⟩, -, hv⟩ := Option.bind_eq_some_iff.mp hv
    dsimp only at hv
    split at hv
    · obtain ⟨⟨own, behind⟩, hown, hv⟩ := Option.bind_eq_some_iff.mp hv
      have hkeys' := hkeys.insert (String.ofList key) own
      have hacc' := Value.forall_insert (.str (String.ofList key)) (h.value _ _ _ hown) hacc
      dsimp only at hv
      split at hv
      · exact h.entries _ _ hkeys' hacc' _ _ hv
      · cases hv
        exact .map hkeys' hacc'
      · cases hv
    · cases hv
  · cases hv

theorem readsWith (fuel : Nat) : ReadsWith fuel := by
  induction fuel with
  | zero => exact readsWith_zero
  | succ fuel ih => exact ⟨ih.value_succ, ih.items_succ, ih.entries_succ⟩

/-- **What a JSON text holds** is a value in which the keys of each map are different texts. -/
theorem isJson_read? {text : String} {v : Value} (h : read? text = some v) : v.IsJson := by
  rw [read?] at h
  split at h
  · next v' rest hv =>
    split at h
    · cases h
      exact (readsWith _).value _ _ _ hv
    · cases h
  · cases h

end Json

end ModelLint
