import Reachability.Log.Entry
import Reachability.Proofs.Json.Prefix
import Reachability.Proofs.Json.Reader
import Reachability.Proofs.Table
import Reachability.Proofs.Time.Timestamp

set_option autoImplicit false

/-! # Entries are read back

Every entry with a stamp of the calendar is read back from its bytes, with or without the newline
after them (`ofBytes?_bytes`, `ofBytes?_line`). The bytes have no newline, and nothing is read from
them when a part is missing at their end (`ofBytes?_eq_none_of_cut`). -/

namespace Reachability

open Json (Reads)

/-! ## Results and tasks -/

namespace Results

/-- The fields of written results, with their values. -/
def fields (r : Results) : List (String × List Char × Json) :=
  r.entries.map fun (link, status) => (link, status.json, .text (some status.word))

theorem json_eq (r : Results) :
    r.json = Json.braced (r.fields.map fun f => Json.field f.1 f.2.1) := by
  simp [json, fields, Function.comp_def]

/-- The value that written results are read as. -/
def value (r : Results) : Json := .object (r.fields.map fun f => (some f.1, f.2.2))

theorem reads_json (r : Results) : Reads r.json r.value := by
  rw [json_eq]
  refine Json.reads_braced r.fields fun f hf => ?_
  obtain ⟨⟨link, status⟩, -, rfl⟩ := List.mem_map.1 hf
  exact Json.reads_quoted status.word

theorem ofJson?_word (isUnit : Json → Bool) (s : LinkStatus) :
    LinkStatus.ofJson? isUnit (.text (some s.word)) = some s := by
  cases s <;> rfl

theorem ofJson?_value (isUnit : Json → Bool) (r : Results) : ofJson? isUnit r.value = some r := by
  have hfields : r.value.fields? = some (r.fields.map fun f => (f.1, f.2.2)) := by
    rw [value, Json.fields?]
    induction r.fields with
    | nil => rfl
    | cons f fs ih => simp [List.mapM_cons, ih]
  have hentries : (r.fields.map fun f => (f.1, f.2.2)).mapM
      (fun (x : String × Json) => (LinkStatus.ofJson? isUnit x.2).map (x.1, ·)) = some r.entries := by
    rw [fields]
    induction r.entries with
    | nil => rfl
    | cons e es ih =>
        rw [List.map_cons, List.map_cons, List.mapM_cons, ih, ofJson?_word]
        rfl
  simp only [ofJson?, hfields, Option.bind_eq_bind, Option.bind_some, hentries,
    Table.ofList_entries]

theorem depth_value (r : Results) : r.value.depth = 1 := by
  have h : Json.depthOfFields (r.fields.map fun f => (some f.1, f.2.2)) = 0 := by
    rw [fields]
    induction r.entries with
    | nil => rfl
    | cons e es ih =>
        simp only [List.map_cons, Json.depthOfFields, ih, Json.depth]
        rfl
  rw [value, Json.depth, h]

theorem isReadable_value (r : Results) : r.value.isReadable = true := by
  rw [value, Json.isReadable, fields]
  induction r.entries with
  | nil => rfl
  | cons e es ih =>
      simp only [List.map_cons, Json.fieldsReadable, ih]
      rfl

end Results

namespace Task

/-- The fields of a written task, with their values. -/
def fields (t : Task) : List (String × List Char × Json) :=
  [("id", Text.decimal t.id.toNat, .number (.ofNat t.id.toNat)),
    ("links", Json.bracketed (t.links.map Json.quoted),
      .array (t.links.map fun l => .text (some l))),
    ("result", t.result.json, t.result.value)]

theorem json_eq (t : Task) :
    t.json = Json.braced (t.fields.map fun f => Json.field f.1 f.2.1) := rfl

/-- The value that a written task is read as. -/
def value (t : Task) : Json := .object (t.fields.map fun f => (some f.1, f.2.2))

theorem reads_links (links : List String) :
    Reads (Json.bracketed (links.map Json.quoted)) (.array (links.map fun l => .text (some l))) := by
  have h := Json.reads_bracketed (links.map fun l => (Json.quoted l, Json.text (some l)))
    fun p hp => by
      obtain ⟨l, -, rfl⟩ := List.mem_map.1 hp
      exact Json.reads_quoted l
  simpa [Function.comp_def] using h

theorem reads_json (t : Task) : Reads t.json t.value := by
  rw [json_eq]
  refine Json.reads_braced t.fields fun f hf => ?_
  simp only [fields, List.mem_cons, List.not_mem_nil, or_false] at hf
  rcases hf with rfl | rfl | rfl
  · exact Json.reads_decimal _
  · exact reads_links t.links
  · exact t.result.reads_json

theorem word?_ofNat (id : TaskId) : (Json.number (.ofNat id.toNat)).word? = some id := by
  have h : id.toNat < Text.wordBound := id.toNat_lt
  simp [Json.word?, h]

theorem mapM_text? (links : List String) :
    links.mapM (Json.text? ∘ fun l => Json.text (some l)) = some links := by
  induction links with
  | nil => rfl
  | cons l ls ih =>
      rw [List.mapM_cons, ih]
      rfl

theorem ofJson?_value (isUnit : Json → Bool) (t : Task) : ofJson? isUnit t.value = some t := by
  simp [ofJson?, value, fields, Json.fields?, Json.field?, ofParts?, word?_ofNat, Json.items?,
    mapM_text?, Results.ofJson?_value]

theorem depth_links (links : List String) :
    Json.depthOfItems (links.map fun l => Json.text (some l)) = 0 := by
  induction links with
  | nil => rfl
  | cons l ls ih => simp [Json.depthOfItems, Json.depth, ih]

theorem itemsReadable_links (links : List String) :
    Json.itemsReadable (links.map fun l => Json.text (some l)) = true := by
  induction links with
  | nil => rfl
  | cons l ls ih => simp [Json.itemsReadable, Json.isReadable, ih]

theorem isFinite_id (id : TaskId) : (Json.Numeral.ofNat id.toNat).isFinite = true :=
  Json.Numeral.isFinite_ofNat id.toNat_lt

theorem depth_value (t : Task) : t.value.depth = 2 := by
  simp [value, fields, Json.depth, Json.depthOfFields, depth_links, Results.depth_value]

theorem isReadable_value (t : Task) : t.value.isReadable = true := by
  simp [value, fields, Json.isReadable, Json.fieldsReadable, itemsReadable_links,
    Results.isReadable_value, isFinite_id]

end Task

/-! ## Entries -/

namespace Log

/-- The fields of a written change, with their values. -/
def Change.fields : Change → List (String × List Char × Json)
  | .create task =>
    [("op", Json.quoted "create", .text (some "create")), ("task", task.json, task.value)]
  | .update id result =>
    [("op", Json.quoted "update", .text (some "update")),
      ("task_id", Text.decimal id.toNat, .number (.ofNat id.toNat)),
      ("result", result.json, result.value)]

namespace Entry

/-- An entry whose stamp names a point in time. -/
def Valid (e : Entry) : Prop := e.stamp.Valid

/-- The fields of a written entry, with their values. -/
def fields (e : Entry) : List (String × List Char × Json) :=
  e.change.fields ++ [("ts", Json.quoted (String.ofList e.stamp.text),
    .text (some (String.ofList e.stamp.text)))]

theorem json_eq (e : Entry) :
    e.json = Json.braced (e.fields.map fun f => Json.field f.1 f.2.1) := by
  obtain ⟨change, stamp⟩ := e
  cases change <;> rfl

/-- The value that a written entry is read as. -/
def value (e : Entry) : Json := .object (e.fields.map fun f => (some f.1, f.2.2))

theorem reads_fields (e : Entry) : ∀ f ∈ e.fields, Reads f.2.1 f.2.2 := by
  intro f hf
  obtain ⟨change, stamp⟩ := e
  cases change with
  | create task =>
      simp only [fields, Change.fields, List.cons_append, List.nil_append, List.mem_cons,
        List.not_mem_nil, or_false] at hf
      rcases hf with rfl | rfl | rfl
      · exact Json.reads_quoted _
      · exact task.reads_json
      · exact Json.reads_quoted _
  | update id result =>
      simp only [fields, Change.fields, List.cons_append, List.nil_append, List.mem_cons,
        List.not_mem_nil, or_false] at hf
      rcases hf with rfl | rfl | rfl | rfl
      · exact Json.reads_quoted _
      · exact Json.reads_decimal _
      · exact result.reads_json
      · exact Json.reads_quoted _

theorem depth_value_le (e : Entry) : e.value.depth ≤ depthLimit := by
  obtain ⟨change, stamp⟩ := e
  cases change <;>
    simp [value, fields, Change.fields, Json.depth, Json.depthOfFields, Task.depth_value,
      Results.depth_value, depthLimit]

theorem isReadable_value (e : Entry) : e.value.isReadable = true := by
  obtain ⟨change, stamp⟩ := e
  cases change <;>
    simp [value, fields, Change.fields, Json.isReadable, Json.fieldsReadable,
      Task.isReadable_value, Results.isReadable_value, Task.isFinite_id]

theorem ofJson?_value {e : Entry} (h : e.Valid) : ofJson? e.value = some e := by
  have hstamp := Timestamp.parse?_text h
  have hdepth := depth_value_le e
  have hreadable := isReadable_value e
  obtain ⟨change, stamp⟩ := e
  have hfields : Json.fields? (value ⟨change, stamp⟩)
      = some ((fields ⟨change, stamp⟩).map fun f => (f.1, f.2.2)) := by
    cases change <;> rfl
  simp only [ofJson?, hfields, Option.bind_eq_bind, Option.bind_some, hdepth, hreadable, and_self,
    if_true]
  cases change <;>
    simp [fields, Change.fields, Json.field?, Json.text?, hstamp, change?, kind?,
      Task.ofJson?_value, Task.word?_ofNat, Results.ofJson?_value]

theorem ofBytes?_append {e : Entry} (h : e.Valid) (blanks : List UInt8)
    (hblanks : ∀ b ∈ blanks, b = 0x0A) : ofBytes? (e.bytes ++ blanks) = some e := by
  rw [ofBytes?, bytes, json_eq, Json.parse?_braced e.fields e.reads_fields blanks hblanks]
  exact ofJson?_value h

/-- An entry is read back from its bytes. -/
theorem ofBytes?_bytes {e : Entry} (h : e.Valid) : ofBytes? e.bytes = some e := by
  simpa using ofBytes?_append h [] nofun

/-! ## The form of the bytes -/

theorem bytes_eq (e : Entry) : ∃ middle, e.bytes = Json.opening :: middle ++ [Json.closing] := by
  refine ⟨Text.utf8 (Json.commas (e.fields.map fun f => Json.field f.1 f.2.1)), ?_⟩
  rw [bytes, json_eq, Json.braced, List.cons_append, Text.utf8_cons_of_lt (by decide),
    Text.utf8_append]
  rfl

/-- A part of an entry that is cut off before its last byte is no entry. -/
theorem ofBytes?_eq_none_of_cut {e : Entry} {p q : List UInt8} (hp : p ≠ []) (hq : q ≠ [])
    (h : p ++ q = e.bytes) : ofBytes? p = none := by
  obtain ⟨middle, hm⟩ := e.bytes_eq
  have hhead : p.head? = some Json.opening := by
    have := congrArg List.head? (h.trans hm)
    rwa [List.head?_append, List.head?_eq_some_head hp, Option.some_or,
      ← List.head?_eq_some_head hp] at this
  have hlast : q.getLast? = some Json.closing := by
    have := congrArg List.getLast? (h.trans hm)
    rwa [List.getLast?_append, List.getLast?_eq_some_getLast hq, Option.some_or,
      ← List.getLast?_eq_some_getLast hq, List.getLast?_concat] at this
  have hwhole : Json.parse? (p ++ q) = some (.object (e.fields.map fun f => (some f.1, f.2.2))) := by
    rw [h, bytes, json_eq]
    simpa using Json.parse?_braced e.fields e.reads_fields [] nofun
  rw [ofBytes?, Json.parse?_eq_none_of_prefix hhead hlast hwhole]
  rfl

/-! ## No newlines -/

theorem newline_not_mem_escape (c : Char) : '\n' ∉ Json.escape c := by
  have hhex : ∀ d < 16, '\n' ≠ Json.hexChar d := by decide
  unfold Json.escape
  split
  · decide
  split
  · decide
  split
  · decide
  split
  · decide
  split
  · decide
  split
  · decide
  split
  · decide
  split
  · next hc =>
    simp only [List.mem_cons, List.not_mem_nil, or_false, not_or]
    exact ⟨by decide, by decide, by decide, by decide, hhex _ (by omega), hhex _ (by omega)⟩
  · next hn _ _ _ =>
    simp only [List.mem_singleton]
    exact fun he => hn he.symm

theorem newline_not_mem_quoted (s : String) : '\n' ∉ Json.quoted s := by
  simp only [Json.quoted, List.cons_append, List.mem_cons, List.mem_append, List.mem_flatMap,
    List.not_mem_nil, or_false, not_or, not_exists, not_and]
  exact ⟨by decide, fun c _ => newline_not_mem_escape c, by decide⟩

theorem newline_not_mem_decimal (n : Nat) : '\n' ∉ Text.decimal n := fun h =>
  Bool.noConfusion (Text.isDigit_of_mem_decimal h)

theorem newline_not_mem_commas {ps : List (List Char)} (h : ∀ p ∈ ps, '\n' ∉ p) :
    '\n' ∉ Json.commas ps := by
  induction ps with
  | nil => exact List.not_mem_nil
  | cons p ps ih =>
      cases ps with
      | nil => exact h p (List.mem_cons_self ..)
      | cons q ps =>
          simp only [Json.commas, List.mem_append, List.mem_cons, not_or]
          exact ⟨h p (List.mem_cons_self ..), by decide, ih fun r hr => h r (List.mem_cons_of_mem _ hr)⟩

theorem newline_not_mem_braced {fs : List (String × List Char × Json)}
    (h : ∀ f ∈ fs, '\n' ∉ f.2.1) :
    '\n' ∉ Json.braced (fs.map fun f => Json.field f.1 f.2.1) := by
  have hparts : '\n' ∉ Json.commas (fs.map fun f => Json.field f.1 f.2.1) := by
    refine newline_not_mem_commas fun p hp => ?_
    obtain ⟨f, hf, rfl⟩ := List.mem_map.1 hp
    simp only [Json.field, List.mem_append, List.mem_cons, not_or]
    exact ⟨newline_not_mem_quoted f.1, by decide, h f hf⟩
  simp only [Json.braced, List.cons_append, List.mem_cons, List.mem_append, List.not_mem_nil,
    or_false, not_or]
  exact ⟨by decide, hparts, by decide⟩

theorem newline_not_mem_results (r : Results) : '\n' ∉ r.json := by
  rw [Results.json_eq]
  refine newline_not_mem_braced fun f hf => ?_
  obtain ⟨⟨link, status⟩, -, rfl⟩ := List.mem_map.1 hf
  exact newline_not_mem_quoted status.word

theorem newline_not_mem_task (t : Task) : '\n' ∉ t.json := by
  rw [Task.json_eq]
  refine newline_not_mem_braced fun f hf => ?_
  simp only [Task.fields, List.mem_cons, List.not_mem_nil, or_false] at hf
  rcases hf with rfl | rfl | rfl
  · exact newline_not_mem_decimal _
  · simp only [Json.bracketed, List.cons_append, List.mem_cons, List.mem_append, List.not_mem_nil,
      or_false, not_or]
    refine ⟨by decide, newline_not_mem_commas fun p hp => ?_, by decide⟩
    obtain ⟨l, -, rfl⟩ := List.mem_map.1 hp
    exact newline_not_mem_quoted l
  · exact newline_not_mem_results t.result

/-- The bytes of an entry stay on one line. -/
theorem newline_not_mem_bytes (e : Entry) : (0x0A : UInt8) ∉ e.bytes := by
  have hjson : '\n' ∉ e.json := by
    rw [json_eq]
    refine newline_not_mem_braced fun f hf => ?_
    obtain ⟨change, stamp⟩ := e
    cases change with
    | create task =>
        simp only [fields, Change.fields, List.cons_append, List.nil_append, List.mem_cons,
          List.not_mem_nil, or_false] at hf
        rcases hf with rfl | rfl | rfl
        · exact newline_not_mem_quoted _
        · exact newline_not_mem_task task
        · exact newline_not_mem_quoted _
    | update id result =>
        simp only [fields, Change.fields, List.cons_append, List.nil_append, List.mem_cons,
          List.not_mem_nil, or_false] at hf
        rcases hf with rfl | rfl | rfl | rfl
        · exact newline_not_mem_quoted _
        · exact newline_not_mem_decimal _
        · exact newline_not_mem_results result
        · exact newline_not_mem_quoted _
  intro hb
  exact hjson (Text.mem_of_mem_utf8 (c := '\n') (by decide) hb)

end Entry

end Log

end Reachability
