import Inlay.Inlining
import Mathlib.Data.List.Nodup

/-!
# Values that are read have each key once

A JSON value is a tree of lists and objects in which, as a type, an object could have a key twice.
Reading never makes such a value: entries are put into an object one by one, and a key that is there
already takes the new value.

* `Value.KeysDistinct`: no object has a key twice, at any depth.
* `nodup_keys_put`: putting an entry keeps the keys distinct.
* `Yields P r`: whatever the reader `r` gives satisfies `P`.
* `keysDistinct_parse`, `keysDistinct_fetch`: so do texts and modules.
-/

namespace Inlay.Json

/-! ## Keys that are told apart -/

mutual

/-- **No object has a key twice**, at any depth. -/
def Value.KeysDistinct : Value → Prop
  | .array items => ItemsKeysDistinct items
  | .object entries => (Entries.keys entries).Nodup ∧ EntriesKeysDistinct entries
  | _ => True

def Value.ItemsKeysDistinct : List Value → Prop
  | [] => True
  | v :: rest => v.KeysDistinct ∧ ItemsKeysDistinct rest

def Value.EntriesKeysDistinct : List (String × Value) → Prop
  | [] => True
  | (_, v) :: rest => v.KeysDistinct ∧ EntriesKeysDistinct rest

end

namespace Value

/-- Items have distinct keys if each of them has. -/
theorem itemsKeysDistinct_iff {items : List Value} :
    ItemsKeysDistinct items ↔ ∀ v ∈ items, v.KeysDistinct := by
  induction items with
  | nil => exact iff_of_true trivial (fun _ h => nomatch h)
  | cons v rest ih => rw [ItemsKeysDistinct, ih, List.forall_mem_cons]

/-- Entries have distinct keys inside if each value has. -/
theorem entriesKeysDistinct_iff {entries : Entries} :
    EntriesKeysDistinct entries ↔ ∀ entry ∈ entries, entry.2.KeysDistinct := by
  induction entries with
  | nil => exact iff_of_true trivial (fun _ h => nomatch h)
  | cons entry rest ih => rw [EntriesKeysDistinct, ih, List.forall_mem_cons]

end Value

/-! ## Putting entries -/

namespace Entries

/-- The keys behind a put are the keys before, and the new one if it was not there. -/
theorem mem_keys_put {key k : String} {v : Value} {entries : Entries}
    (h : k ∈ (put key v entries).keys) : k = key ∨ k ∈ entries.keys := by
  induction entries with
  | nil => exact Or.inl (List.mem_singleton.mp h)
  | cons entry rest ih =>
      rw [put] at h
      by_cases hkey : entry.1 = key
      · rw [if_pos hkey] at h
        exact Or.inr h
      · rw [if_neg hkey] at h
        rcases List.mem_cons.mp h with hhere | hrest
        · exact Or.inr (hhere ▸ List.mem_cons_self)
        · rcases ih hrest with hk | hk
          · exact Or.inl hk
          · exact Or.inr (List.mem_cons_of_mem _ hk)

/-- **Putting an entry keeps the keys distinct.** -/
theorem nodup_keys_put {entries : Entries} (h : entries.keys.Nodup) (key : String) (v : Value) :
    (put key v entries).keys.Nodup := by
  induction entries with
  | nil => exact List.nodup_singleton key
  | cons entry rest ih =>
      have hentry : entry.1 ∉ keys rest ∧ (keys rest).Nodup := List.nodup_cons.mp h
      rw [put]
      by_cases hkey : entry.1 = key
      · rw [if_pos hkey]
        exact h
      · rw [if_neg hkey]
        refine List.nodup_cons.mpr ⟨?_, ih hentry.2⟩
        intro hmem
        rcases mem_keys_put hmem with hk | hk
        · exact hkey hk
        · exact hentry.1 hk

/-- A value behind a put was there before, or is the new one. -/
theorem mem_put {key : String} {v : Value} {entries : Entries} {entry : String × Value}
    (h : entry ∈ put key v entries) : entry.2 = v ∨ entry ∈ entries := by
  induction entries with
  | nil => exact Or.inl (congrArg Prod.snd (List.mem_singleton.mp h))
  | cons other rest ih =>
      rw [put] at h
      by_cases hkey : other.1 = key
      · rw [if_pos hkey] at h
        rcases List.mem_cons.mp h with rfl | hrest
        · exact Or.inl rfl
        · exact Or.inr (List.mem_cons_of_mem _ hrest)
      · rw [if_neg hkey] at h
        rcases List.mem_cons.mp h with rfl | hrest
        · exact Or.inr List.mem_cons_self
        · rcases ih hrest with hv | hv
          · exact Or.inl hv
          · exact Or.inr (List.mem_cons_of_mem _ hv)

/-- Entries with distinct keys at every depth stay so when such a value is put. -/
theorem keysDistinct_put {entries : Entries} (h : (Value.object entries).KeysDistinct)
    (key : String) {v : Value} (hv : v.KeysDistinct) :
    (Value.object (put key v entries)).KeysDistinct := by
  refine ⟨nodup_keys_put h.1 key v, Value.entriesKeysDistinct_iff.mpr ?_⟩
  intro entry hentry
  rcases mem_put hentry with hnew | hold
  · exact hnew ▸ hv
  · exact Value.entriesKeysDistinct_iff.mp h.2 entry hold

end Entries

/-! ## Readers -/

/-- **A result of reading satisfies `P`**, if there is one. -/
def Gives {α : Type} (P : α → Prop) (x : Except Fault (α × List Char)) : Prop :=
  ∀ a s, x = .ok (a, s) → P a

/-- **Whatever a reader gives satisfies `P`.** -/
def Yields {α : Type} (P : α → Prop) (r : Reader α) : Prop := ∀ s, Gives P (r s)

namespace Gives

variable {α β : Type} {P : α → Prop}

theorem ok {a : α} (h : P a) (s : List Char) : Gives P (.ok (a, s)) := by
  rintro _ _ ⟨⟩
  exact h

theorem error (fault : Fault) : Gives P (.error fault) := fun _ _ h => nomatch h

/-- Reading in two steps. -/
theorem bind {Q : β → Prop} {x : Except Fault (β × List Char)}
    {f : β × List Char → Except Fault (α × List Char)} (hx : Gives Q x)
    (hf : ∀ b s, Q b → Gives P (f (b, s))) : Gives P (x >>= f) := by
  cases x with
  | error fault => exact error fault
  | ok first => exact hf first.1 first.2 (hx _ _ rfl)

/-- Reading in two steps, of which the first one does not matter. -/
theorem bind' {x : Except Fault (β × List Char)}
    {f : β × List Char → Except Fault (α × List Char)}
    (hf : ∀ b s, Gives P (f (b, s))) : Gives P (x >>= f) :=
  bind (Q := fun _ => True) (fun _ _ _ => trivial) (fun b s _ => hf b s)

end Gives

/-- Elements are read into lists with distinct keys. -/
theorem yields_elements {item : Reader Value} (hitem : Yields Value.KeysDistinct item)
    (bound : Nat) {done : List Value} (hdone : ∀ v ∈ done, v.KeysDistinct) :
    Yields Value.ItemsKeysDistinct (elements item bound done) := by
  have hend : ∀ done : List Value, (∀ v ∈ done, v.KeysDistinct) →
      ∀ s, Gives Value.ItemsKeysDistinct
        (endList s >>= fun (_, s) => return (done.reverse, s)) := by
    intro done hdone s
    -- the elements before are kept in reverse, and turned around at the end
    refine .bind' (fun _ s => .ok (Value.itemsKeysDistinct_iff.mpr ?_) s)
    intro v hv
    exact hdone v (List.mem_reverse.mp hv)
  induction bound generalizing done with
  | zero =>
      intro s
      rw [elements]
      refine .bind' (fun more s => ?_)
      cases more with
      | false => exact hend done hdone s
      | true => exact .bind' (fun _ s => .error _)
  | succ bound ih =>
      intro s
      rw [elements]
      refine .bind' (fun more s => ?_)
      cases more with
      | false => exact hend done hdone s
      | true =>
          refine .bind (hitem s) (fun v s hv => ?_)
          exact ih (List.forall_mem_cons.mpr ⟨hv, hdone⟩) s

/-- Entries are read into objects with distinct keys. -/
theorem yields_entries {item : Reader Value} (hitem : Yields Value.KeysDistinct item)
    (bound : Nat) {done : Entries} (hdone : (Value.object done).KeysDistinct) :
    Yields (fun es => (Value.object es).KeysDistinct) (entries item bound done) := by
  have hend : ∀ done : Entries, (Value.object done).KeysDistinct →
      ∀ s, Gives (fun es => (Value.object es).KeysDistinct)
        (endObject s >>= fun (_, s) => return (done, s)) := by
    intro done hdone s
    refine .bind' (fun _ s => ?_)
    rintro _ _ ⟨⟩
    exact hdone
  induction bound generalizing done with
  | zero =>
      intro s
      rw [entries]
      refine .bind' (fun key s => ?_)
      cases key with
      | none => exact hend done hdone s
      | some key => exact .bind' (fun _ s => .bind' (fun _ s => .error _))
  | succ bound ih =>
      intro s
      rw [entries]
      refine .bind' (fun key s => ?_)
      cases key with
      | none => exact hend done hdone s
      | some key =>
          refine .bind' (fun _ s => .bind (hitem s) (fun v s hv => ?_))
          exact ih (Entries.keysDistinct_put hdone key hv) s

/-- A list that is read has distinct keys. -/
theorem yields_list {item : Reader Value} (hitem : Yields Value.KeysDistinct item)
    (bound : Nat) : Yields Value.KeysDistinct (list bound item) := by
  intro s
  have hnone : ∀ v ∈ ([] : List Value), v.KeysDistinct := fun _ h => nomatch h
  refine .bind (yields_elements hitem bound hnone s) (fun items s hitems => ?_)
  exact .ok (show (Value.array items).KeysDistinct from hitems) s

/-- An object that is read has distinct keys, also if it stands for a number. -/
theorem yields_object {item : Reader Value} (hitem : Yields Value.KeysDistinct item)
    (bound : Nat) : Yields Value.KeysDistinct (object bound item) := by
  intro s
  refine .bind' (fun key s => ?_)
  cases key with
  | none => exact .bind' (fun _ s => .ok ⟨List.nodup_nil, trivial⟩ s)
  | some key =>
      show Gives _ (if key = numberKey then _ else _)
      by_cases hkey : key = numberKey
      · rw [if_pos hkey]
        exact .bind' (fun _ s => .ok trivial s)
      · rw [if_neg hkey]
        refine .bind' (fun _ s => .bind (hitem s) (fun v s hv => ?_))
        have hfirst : (Value.object [(key, v)]).KeysDistinct :=
          ⟨List.nodup_singleton key, hv, trivial⟩
        exact .bind (yields_entries hitem bound hfirst s) (fun es s hes => .ok hes s)

/-- A value has distinct keys if the values one level below have. -/
theorem yields_value_of_below {bound levels : Nat}
    (hbelow : ∀ below, levels = below + 1 → Yields Value.KeysDistinct (value bound below)) :
    Yields Value.KeysDistinct (value bound levels) := by
  intro s
  rw [value.eq_def]
  dsimp only
  -- the end of the text, three words, a string, a list, an object, and the rest
  split
  · exact .error _
  · exact .bind' (fun _ s => .ok trivial s)
  · exact .bind' (fun _ s => .ok trivial s)
  · exact .bind' (fun _ s => .ok trivial s)
  · exact .bind' (fun _ s => .ok trivial s)
  · split
    · exact .error _
    · exact yields_list (hbelow _ rfl) bound _
  · split
    · exact .error _
    · exact yields_object (hbelow _ rfl) bound _
  · split
    · exact .bind' (fun _ s => .ok trivial s)
    · exact .error _

/-- **A value that is read has distinct keys**, however deep it is. -/
theorem yields_value (bound levels : Nat) : Yields Value.KeysDistinct (value bound levels) := by
  induction levels with
  | zero => exact yields_value_of_below (fun _ h => nomatch h)
  | succ levels ih =>
      refine yields_value_of_below (fun below h => ?_)
      cases h
      exact ih

/-- Looking for the end of a text changes nothing that was read. -/
theorem finish_eq_ok {α : Type} {a b : α} {s : List Char} (h : finish (a, s) = .ok b) : b = a := by
  rw [finish] at h
  split at h
  · cases h
    rfl
  · exact nomatch h

/-- **So does the value of a whole text.** -/
theorem keysDistinct_parse {text : String} {v : Value} (h : parse text = .ok v) :
    v.KeysDistinct := by
  rw [parse, parseWith] at h
  cases hread : value text.toList.length maxLevels text.toList with
  | error fault =>
      rw [hread] at h
      exact nomatch h
  | ok result =>
      rw [hread, show (Except.ok result >>= finish) = finish result from rfl] at h
      cases hfinish : finish result with
      | error fault =>
          rw [hfinish] at h
          exact nomatch h
      | ok w =>
          rw [hfinish] at h
          cases h
          rw [finish_eq_ok hfinish]
          exact yields_value _ _ _ _ _ hread

end Inlay.Json

namespace Inlay

/-- **The data of a module has distinct keys.** -/
theorem Context.keysDistinct_fetch (ctx : Context) {module : String} {v : Json.Value}
    (h : ctx.fetch module = .ok v) : v.KeysDistinct := by
  rw [fetch] at h
  split at h
  · exact nomatch h
  · split at h
    · exact nomatch h
    · cases h
      exact Json.keysDistinct_parse ‹_›

end Inlay
