/-
The text of CLIENT LIST: a line for each client, and on it `key=value` for each of its fields, with a space between two.

`renderClientList` is the format as the server writes it, `parseClientListReply` what `client_list` makes of it. A row is
in the format (`RowOk`) where its keys and values hold none of the separators they would be cut at; a value may hold `=`,
and may be empty.

Results:
- `splitAtEq_field`, `fields_renderRow`, `parseClientListReply_cons`: a field, a line and the first line of a text are
  read back;
- `parse_client_list_inverts`: the whole text, in every kind of reply that carries one.
Witness: `parse_client_list_inverts_two`.
-/
import RedisRsPy.Commands.Reply

namespace RedisRsPy.Commands

/-! ## The format -/

/-- `key=value` -/
def field (kv : Bytes × Bytes) : Bytes := kv.1 ++ 61 :: kv.2

def renderRow (row : List (Bytes × Bytes)) : Bytes := [32].intercalate (row.map field)

/-- the reply of the server -/
def renderClientList (rows : List (List (Bytes × Bytes))) : Bytes := rows.flatMap fun row => renderRow row ++ [10]

/-- a field that is cut at its first `=` only -/
structure FieldOk (kv : Bytes × Bytes) : Prop where
  keySpace : (32 : UInt8) ∉ kv.1
  keyEq : (61 : UInt8) ∉ kv.1
  keyNewline : (10 : UInt8) ∉ kv.1
  valueSpace : (32 : UInt8) ∉ kv.2
  valueNewline : (10 : UInt8) ∉ kv.2

structure RowOk (row : List (Bytes × Bytes)) : Prop where
  nonempty : row ≠ []
  fields : ∀ kv ∈ row, FieldOk kv

/-! ## One field -/

theorem takeWhile_eq {k : Bytes} (h : (61 : UInt8) ∉ k) (v : Bytes) : (k ++ 61 :: v).takeWhile (· != 61) = k := by
  induction k with
  | nil => rfl
  | cons b k ih =>
    have hb : (b != 61) = true := bne_iff_ne.2 fun hb => h (hb ▸ List.mem_cons_self)
    rw [List.cons_append, List.takeWhile_cons, if_pos hb, ih fun hk => h (List.mem_cons_of_mem b hk)]

theorem dropWhile_eq {k : Bytes} (h : (61 : UInt8) ∉ k) (v : Bytes) :
    (k ++ 61 :: v).dropWhile (· != 61) = 61 :: v := by
  induction k with
  | nil => rfl
  | cons b k ih =>
    have hb : (b != 61) = true := bne_iff_ne.2 fun hb => h (hb ▸ List.mem_cons_self)
    rw [List.cons_append, List.dropWhile_cons, if_pos hb, ih fun hk => h (List.mem_cons_of_mem b hk)]

theorem splitAtEq_field {kv : Bytes × Bytes} (h : FieldOk kv) : splitAtEq (field kv) = some kv := by
  have hmem : (61 : UInt8) ∈ field kv := List.mem_append_right kv.1 List.mem_cons_self
  rw [splitAtEq, if_pos hmem, field, takeWhile_eq h.keyEq, dropWhile_eq h.keyEq]
  rfl

theorem not_mem_field {b : UInt8} {kv : Bytes × Bytes} (hb : b ≠ 61) (hkey : b ∉ kv.1) (hvalue : b ∉ kv.2) :
    b ∉ field kv := by
  intro hmem
  rcases List.mem_append.1 hmem with hk | hv
  · exact hkey hk
  · rcases List.mem_cons.1 hv with heq | hv
    · exact hb heq
    · exact hvalue hv

/-! ## One line -/

/-- what no part and no separator holds, the line does not hold -/
theorem not_mem_intercalate {b sep : UInt8} {parts : List Bytes} (hsep : b ≠ sep) (h : ∀ part ∈ parts, b ∉ part) :
    b ∉ [sep].intercalate parts := by
  induction parts with
  | nil => exact List.not_mem_nil
  | cons part parts ih =>
    have hpart := h part List.mem_cons_self
    have hparts := ih fun p hp => h p (List.mem_cons_of_mem part hp)
    cases parts with
    | nil => rwa [List.intercalate_singleton]
    | cons next parts =>
      rw [List.intercalate_cons_of_ne_nil (List.cons_ne_nil next parts)]
      intro hmem
      rcases List.mem_append.1 hmem with hmem | hrest
      · rcases List.mem_append.1 hmem with hp | hs
        · exact hpart hp
        · exact hsep (List.mem_singleton.1 hs)
      · exact hparts hrest

theorem newline_not_mem_renderRow {row : List (Bytes × Bytes)} (h : RowOk row) : (10 : UInt8) ∉ renderRow row := by
  apply not_mem_intercalate (by decide)
  intro part hpart
  obtain ⟨kv, hkv, rfl⟩ := List.mem_map.1 hpart
  exact not_mem_field (by decide) (h.fields kv hkv).keyNewline (h.fields kv hkv).valueNewline

/-- **A line is read back.** -/
theorem fields_renderRow {row : List (Bytes × Bytes)} (h : RowOk row) :
    ((renderRow row).splitOn 32).filterMap splitAtEq = row := by
  have hspace : ∀ part ∈ row.map field, (32 : UInt8) ∉ part := by
    intro part hpart
    obtain ⟨kv, hkv, rfl⟩ := List.mem_map.1 hpart
    exact not_mem_field (by decide) (h.fields kv hkv).keySpace (h.fields kv hkv).valueSpace
  have hne : row.map field ≠ [] := fun hnil => h.nonempty (List.map_eq_nil_iff.1 hnil)
  rw [renderRow, List.splitOn_intercalate 32 hspace hne, List.filterMap_map]
  have hall : ∀ kv ∈ row, (splitAtEq ∘ field) kv = some kv := fun kv hkv => splitAtEq_field (h.fields kv hkv)
  rw [List.filterMap_congr hall, List.filterMap_some]

/-! ## All lines -/

/-- the first line is read on its own -/
theorem parseClientListReply_cons {row : List (Bytes × Bytes)} (h : RowOk row) (text : Bytes) :
    parseClientListReply (renderRow row ++ 10 :: text) = row :: parseClientListReply text := by
  have hrow := fields_renderRow h
  have hne : row.isEmpty = false := List.isEmpty_eq_false_iff.2 h.nonempty
  rw [parseClientListReply, List.splitOn_append_cons_self_of_not_mem (newline_not_mem_renderRow h), List.filterMap_cons]
  simp only [hrow, hne]
  rfl

theorem parseClientListReply_render {rows : List (List (Bytes × Bytes))} (h : ∀ row ∈ rows, RowOk row) :
    parseClientListReply (renderClientList rows) = rows := by
  induction rows with
  | nil => rfl
  | cons row rows ih =>
    have hrest := ih fun r hr => h r (List.mem_cons_of_mem row hr)
    calc parseClientListReply (renderClientList (row :: rows))
        = parseClientListReply (renderRow row ++ 10 :: renderClientList rows) := by
          rw [renderClientList, List.flatMap_cons, List.append_assoc]
          rfl
      _ = row :: parseClientListReply (renderClientList rows) :=
          parseClientListReply_cons (h row List.mem_cons_self) _
      _ = row :: rows := by rw [hrest]

/-- **CLIENT LIST is inverted.** The rows that the text was written from are read out of it, in order and with their
pairs in order, whether the server sends the text as a bulk, a simple or a verbatim string. -/
theorem parse_client_list_inverts {rows : List (List (Bytes × Bytes))} (h : ∀ row ∈ rows, RowOk row) :
    parseClientListReply (renderClientList rows) = rows ∧
      (∀ v, adminBytes v = renderClientList rows → parseClientListReply (adminBytes v) = rows) ∧
      adminBytes (.bulkString (renderClientList rows)) = renderClientList rows ∧
      (∀ s : String, asBytes s = renderClientList rows →
        adminBytes (.simpleString s) = renderClientList rows ∧ adminBytes (.verbatimString s) = renderClientList rows) := by
  have hrender := parseClientListReply_render h
  refine ⟨hrender, ?_, rfl, fun s hs => ⟨hs, hs⟩⟩
  intro v hv
  rw [hv, hrender]

/-- two clients, with an empty value and a value that holds `=` -/
theorem parse_client_list_inverts_two :
    parseClientListReply (renderClientList [[([105, 100], [55]), ([110], [])], [([110], [97, 61, 98])]]) =
      [[([105, 100], [55]), ([110], [])], [([110], [97, 61, 98])]] := by
  refine (parse_client_list_inverts ?_).1
  intro row hrow
  rcases List.mem_cons.1 hrow with rfl | hrow
  · refine ⟨List.cons_ne_nil _ _, ?_⟩
    intro kv hkv
    rcases List.mem_cons.1 hkv with rfl | hkv
    · constructor <;> decide
    · obtain rfl := List.mem_singleton.1 hkv
      constructor <;> decide
  · obtain rfl := List.mem_singleton.1 hrow
    refine ⟨List.cons_ne_nil _ _, ?_⟩
    intro kv hkv
    obtain rfl := List.mem_singleton.1 hkv
    constructor <;> decide

end RedisRsPy.Commands
