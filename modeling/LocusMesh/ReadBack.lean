import Mathlib
import LocusMesh.BoundedInput
import LocusMesh.JsonReading

/-! What the program writes as JSON is what its strict parser reads: canonical bytes, the lines
and the indented blocks of the command line. -/
namespace LocusMesh

open CanonicalJson PyCollections PyText PyJson

/-- `separators=(",", ":")`, `ensure_ascii=False`. -/
def compact : Style where
  char := escapeChar
  line _ := []
  gap _ := []
  colon := []
  spelled := escapeChar_spelling
  blank_line _ := rfl
  blank_gap _ := rfl
  blank_colon := rfl

theorem newline_blank (indent : Bool) (depth : ℕ) : Blank (newline indent depth) := by
  cases indent with
  | false => rfl
  | true =>
    rw [Blank,newline,if_pos rfl,skipWs,List.dropWhile_eq_nil_iff]
    intro c hc
    rcases List.mem_cons.mp hc with rfl | hc
    · rfl
    · rw [List.eq_of_mem_replicate hc]
      rfl

/-- The default separators, or those of an indentation. -/
def console (indent : Bool) : Style where
  char := asciiEscape
  line := newline indent
  gap depth := if indent then newline true depth else [' ']
  colon := [' ']
  spelled := asciiEscape_spelling
  blank_line := newline_blank indent
  blank_gap depth := by
    cases indent with
    | false => rfl
    | true => exact newline_blank true depth
  blank_colon := rfl

mutual
theorem write_compact (depth : ℕ) : ∀ v, compact.write depth v = render v
  | .null => rfl
  | .bool b => by cases b <;> rfl
  | .int i => by rw [Style.write,render]
  | .str s => by rw [Style.write,render]; rfl
  | .arr [] => rfl
  | .arr (v :: vs) => by
    rw [Style.write,render,write_compact _ v,← writeItems_compact (depth + 1) vs]
    simp [compact]
  | .obj [] => rfl
  | .obj ((k,v) :: es) => by
    rw [Style.write,render,write_compact _ v,← writeEntries_compact (depth + 1) es]
    simp [compact,Style.key,Style.quote,quote,escape]
theorem writeItems_compact (depth : ℕ) : ∀ vs, compact.writeItems depth vs ++ [']'] = renderItems vs
  | [] => rfl
  | v :: vs => by
    rw [Style.writeItems,renderItems,write_compact _ v,← writeItems_compact depth vs]
    simp [compact]
theorem writeEntries_compact (depth : ℕ) :
    ∀ es, compact.writeEntries depth es ++ ['}'] = renderEntries es
  | [] => rfl
  | (k,v) :: es => by
    rw [Style.writeEntries,renderEntries,write_compact _ v,← writeEntries_compact depth es]
    simp [compact,Style.key,Style.quote,quote,escape]
end

mutual
theorem write_console (indent : Bool) (depth : ℕ) :
    ∀ v, (console indent).write depth v = layout indent depth v
  | .null => rfl
  | .bool b => by rw [Style.write,layout]
  | .int i => by rw [Style.write,layout]
  | .str s => by rw [Style.write,layout]; rfl
  | .arr [] => rfl
  | .arr (v :: vs) => by
    rw [Style.write,layout,write_console indent _ v,writeItems_console indent _ vs]
    simp [console]
  | .obj [] => rfl
  | .obj ((k,v) :: es) => by
    rw [Style.write,layout,write_console indent _ v,writeEntries_console indent _ es]
    simp [console,Style.key,Style.quote,asciiQuote]
theorem writeItems_console (indent : Bool) (depth : ℕ) :
    ∀ vs, (console indent).writeItems depth vs = layoutItems indent depth vs
  | [] => rfl
  | v :: vs => by
    rw [Style.writeItems,layoutItems,write_console indent _ v,writeItems_console indent _ vs]
    cases indent <;> simp [console,separator]
theorem writeEntries_console (indent : Bool) (depth : ℕ) :
    ∀ es, (console indent).writeEntries depth es = layoutEntries indent depth es
  | [] => rfl
  | (k,v) :: es => by
    rw [Style.writeEntries,layoutEntries,write_console indent _ v,
      writeEntries_console indent _ es]
    cases indent <;> simp [console,separator,Style.key,Style.quote,asciiQuote]
end

mutual
def parsedValue : Json → Value
  | .null => .leaf .null
  | .bool b => .leaf (.bool b)
  | .int i => .leaf (.number (intText i))
  | .str s => .leaf (.str (str s))
  | .arr vs => .list (parsedItems vs)
  | .obj es => .dict (parsedEntries es)
def parsedItems : List Json → List Value
  | [] => []
  | v :: vs => parsedValue v :: parsedItems vs
def parsedEntries : List (String × Json) → List (Str × Value)
  | [] => []
  | (k,v) :: es => (str k,parsedValue v) :: parsedEntries es
end

theorem parsedItems_eq (vs : List Json) : parsedItems vs = vs.map parsedValue := by
  induction vs with
  | nil => rfl
  | cons v vs ih => rw [parsedItems,ih,List.map_cons]

theorem parsedEntries_eq (es : List (String × Json)) :
    parsedEntries es = es.map fun e => (str e.1,parsedValue e.2) := by
  induction es with
  | nil => rfl
  | cons e es ih => rw [parsedEntries,ih,List.map_cons]

theorem str_injective : Function.Injective str := by
  intro s t h
  have hchars := List.map_injective_iff.mpr (fun a b hab => CodePoint.scalar.inj hab) h
  exact String.toList_inj.mp hchars

theorem rejectDuplicateKeys_unique {β : Type} {result pairs : List (Str × β)}
    (h : ((result ++ pairs).map Prod.fst).Nodup) :
    rejectDuplicateKeys result pairs = .ok (result ++ pairs) := by
  induction pairs generalizing result with
  | nil => rw [rejectDuplicateKeys,List.append_nil]
  | cons pair pairs ih =>
    obtain ⟨key,value⟩ := pair
    have hnew : key ∉ result.map Prod.fst := by
      rw [List.map_append,List.map_cons,List.nodup_append] at h
      intro hmem
      exact h.2.2 key hmem key List.mem_cons_self rfl
    rw [rejectDuplicateKeys,if_neg hnew,ih (by simpa using h),List.append_assoc,
      List.singleton_append]

theorem reads_strict : Reads strict parsedValue where
  null := rfl
  bool _ := rfl
  int _ := rfl
  str _ := rfl
  arr vs := by
    rw [parsedValue,parsedItems_eq]
    rfl
  obj es h := by
    have hkeys : (([] ++ parsedEntries es).map Prod.fst).Nodup := by
      rw [List.nil_append,parsedEntries_eq,List.map_map]
      have hmap := h.map str_injective
      rwa [List.map_map] at hmap
    show Value.dict <$> rejectDuplicateKeys [] _ = _
    rw [← parsedEntries_eq,rejectDuplicateKeys_unique hkeys,parsedValue]
    rfl

theorem distinct_sortKeys {v : Json} (h : Distinct v) : Distinct (sortKeys v) :=
  (sameValue_sortKeys v).distinct_iff.mp h

theorem nesting_sortKeys_le (v : Json) : ∀ n, nesting (sortKeys v) ≤ n ↔ nesting v ≤ n := by
  induction v using json_induction with
  | arr vs ih =>
    intro n
    cases n with
    | zero => simp [sortKeys,nesting]
    | succ n =>
      rw [sortKeys,sortItems_eq_map,nesting,nesting,Nat.succ_le_succ_iff,Nat.succ_le_succ_iff,
        nestingItems_le,nestingItems_le,List.forall_mem_map]
      exact forall₂_congr fun v hv => ih v hv n
  | obj es ih =>
    intro n
    cases n with
    | zero => simp [sortKeys,nesting]
    | succ n =>
      rw [sortKeys,sortEntries_eq_map,nesting,nesting,Nat.succ_le_succ_iff,Nat.succ_le_succ_iff,
        nestingEntries_le,nestingEntries_le]
      simp only [mem_sortedBy,List.forall_mem_map]
      exact forall₂_congr fun e he => ih e he n
  | _ => exact fun n => Iff.rfl

theorem intsFit_sortKeys (v : Json) : IntsFit (sortKeys v) ↔ IntsFit v := by
  induction v using json_induction with
  | arr vs ih =>
    rw [sortKeys,sortItems_eq_map,IntsFit,IntsFit,intsFitItems_iff,intsFitItems_iff,
      List.forall_mem_map]
    exact forall₂_congr ih
  | obj es ih =>
    rw [sortKeys,sortEntries_eq_map,IntsFit,IntsFit,intsFitEntries_iff,intsFitEntries_iff]
    simp only [mem_sortedBy,List.forall_mem_map]
    exact forall₂_congr ih
  | _ => rfl

/-- The value read back: its keys are sorted, its text kept by the strict hook. -/
def readBack (limit : ℕ) (v : Json) : Except (ScanError Str) Value :=
  if nesting v ≤ limit then .ok (parsedValue (sortKeys v)) else .error .recursion

theorem loads_style (σ : Style) {v : Json} (hdistinct : Distinct v) (hfit : IntsFit v) (limit : ℕ) :
    loads strict limit (σ.write 0 (sortKeys v)) = readBack limit v := by
  rw [loads_write reads_strict σ (distinct_sortKeys hdistinct) ((intsFit_sortKeys v).mpr hfit),
    readBack,if_congr (nesting_sortKeys_le v limit) rfl rfl]

/-- All three writers are undone by the strict parser, up to the order of keys, exactly where
nothing is nested deeper than the parser goes. -/
theorem written_reads_back (v : JsonValue) (hfit : IntsFit v.val) (limit : ℕ) :
    loads strict limit (dumps v.val).toList = readBack limit v.val ∧
      loads strict limit (jsonLine v.val).toList = readBack limit v.val ∧
      loads strict limit (jsonBlock v.val).toList = readBack limit v.val := by
  refine ⟨?_,?_,?_⟩
  · rw [dumps,String.toList_ofList,← write_compact 0]
    exact loads_style compact v.property hfit limit
  · rw [jsonLine,String.toList_ofList,← write_console]
    exact loads_style (console false) v.property hfit limit
  · rw [jsonBlock,String.toList_ofList,← write_console]
    exact loads_style (console true) v.property hfit limit

def surrogateText : JsonValue :=
  ⟨.obj [("b",.arr [.int (-7),.null]),("a",.str "é😀\n")],by
    simp [Distinct,distinctEntries_iff,distinctItems_iff]⟩

theorem written_reads_back_demo :
    loads strict 2 (jsonLine surrogateText.val).toList = .ok (.dict
      [(str "a",.leaf (.str (str "é😀\n"))),
       (str "b",.list [.leaf (.number ['-','7']),.leaf .null])]) ∧
    loads strict 1 (jsonBlock surrogateText.val).toList = .error .recursion := by
  have hfit : IntsFit surrogateText.val := by
    simp [surrogateText,intsFitEntries_iff,intsFitItems_iff,IntsFit]
    decide
  obtain ⟨_,hline,_⟩ := written_reads_back surrogateText hfit 2
  obtain ⟨_,_,hblock⟩ := written_reads_back surrogateText hfit 1
  exact ⟨hline,hblock⟩

theorem universalNewlines_id {text : Text} (h : '\r' ∉ text) : universalNewlines text = text := by
  induction text with
  | nil => rfl
  | cons c text ih =>
    rw [List.mem_cons,not_or] at h
    rw [universalNewlines.eq_def]
    split
    · rename_i heq
      cases heq
      exact absurd rfl h.1
    · rename_i heq
      cases heq
      exact absurd rfl h.1
    · rename_i heq
      cases heq
      rw [ih h.2]
    · rename_i heq
      cases heq

theorem escapeChar_no_return (c : Char) : '\r' ∉ escapeChar c := by
  have hdigit : ∀ d < 16, '\r' ≠ Nat.digitChar d := by decide
  unfold escapeChar
  split_ifs with h1 h2 h3 h4 h5 h6 h7 h8
  · decide
  · decide
  · decide
  · decide
  · decide
  · decide
  · decide
  · simp [hdigit (c.toNat / 16) (by omega),hdigit (c.toNat % 16) (by omega)]
  · simpa using Ne.symm h4

theorem quote_no_return (s : String) : '\r' ∉ quote s := by
  intro h
  rw [quote,List.mem_cons,List.mem_append,escape,List.mem_flatMap] at h
  rcases h with h | ⟨c,_,hc⟩ | h
  · exact absurd h (by decide)
  · exact escapeChar_no_return c hc
  · exact absurd h (by decide)

theorem intText_no_return (i : ℤ) : '\r' ∉ intText i := by
  have hdigits : ∀ n, '\r' ∉ Nat.toDigits 10 n := fun n h =>
    absurd (toDigits_isDigit n _ h) (by decide)
  cases i with
  | ofNat n => exact hdigits n
  | negSucc n =>
    rw [intText,List.mem_cons,not_or]
    exact ⟨by decide,hdigits (n + 1)⟩

mutual
theorem render_no_return : ∀ v, '\r' ∉ render v
  | .null => by decide
  | .bool b => by cases b <;> decide
  | .int i => by rw [render]; exact intText_no_return i
  | .str s => by rw [render]; exact quote_no_return s
  | .arr [] => by decide
  | .arr (v :: vs) => by
    have hv := render_no_return v
    have hvs := renderItems_no_return vs
    simp [render,hv,hvs]
  | .obj [] => by decide
  | .obj ((k,v) :: es) => by
    have hk := quote_no_return k
    have hv := render_no_return v
    have hes := renderEntries_no_return es
    simp [render,hk,hv,hes]
theorem renderItems_no_return : ∀ vs, '\r' ∉ renderItems vs
  | [] => by decide
  | v :: vs => by
    have hv := render_no_return v
    have hvs := renderItems_no_return vs
    simp [renderItems,hv,hvs]
theorem renderEntries_no_return : ∀ es, '\r' ∉ renderEntries es
  | [] => by decide
  | (k,v) :: es => by
    have hk := quote_no_return k
    have hv := render_no_return v
    have hes := renderEntries_no_return es
    simp [renderEntries,hk,hv,hes]
end

def canonicalFile (v : Json) : File :=
  ⟨.ok (canonicalJsonBytes v).length,.ok (canonicalJsonBytes v)⟩

theorem boundedText_canonical (tooLarge : String) {v : Json}
    (hsize : (canonicalJsonBytes v).length ≤ maxInputBytes) :
    boundedText tooLarge (canonicalFile v) = .ok (dumps v).toList := by
  have hreturn : '\r' ∉ (dumps v).toList := by
    rw [dumps,String.toList_ofList]
    exact render_no_return _
  rw [canonicalFile,boundedText_small _ hsize,canonicalJsonBytes,decodeUtf8_encode]
  simp only [universalNewlines_id hreturn]

theorem loads_canonical {v : Json} (hdistinct : Distinct v) (hfit : IntsFit v) {limit : ℕ}
    (hnesting : nesting v ≤ limit) :
    loads strict limit (dumps v).toList = .ok (parsedValue (sortKeys v)) := by
  rw [dumps,String.toList_ofList,← write_compact 0,loads_style compact hdistinct hfit,readBack,
    if_pos hnesting]

/-- What `load_json_model` hands to a model is the value whose bytes the file holds. -/
theorem loadJsonData_canonical {v : Json} (hdistinct : Distinct v) (hfit : IntsFit v) {limit : ℕ}
    (hnesting : nesting v ≤ limit) (hsize : (canonicalJsonBytes v).length ≤ maxInputBytes) :
    loadJsonData limit (canonicalFile v) = .ok (parsedValue (sortKeys v)) := by
  rw [loadJsonData,readBounded,boundedText_canonical _ hsize]
  exact parseJson_ok.mpr (loads_canonical hdistinct hfit hnesting)

end LocusMesh
