import AlarmQuery.Command.Run
import AlarmQuery.Proofs.Clause.RoundTrip
import AlarmQuery.Proofs.Json.RoundTrip

/-!
# Clauses that are exported and read again

The text in which clauses are exported as JSON names every value of every clause, so no value is
left to its default when a file with that text is read.
-/

namespace AlarmQuery

namespace Clause

/-! ## One clause -/

/-- A draft that has learnt the value of a key from a clause. -/
def Draft.learn (clause : Clause) (draft : Draft) : Key → Draft
  | .negation => { draft with negation := some clause.negation }
  | .field => { draft with field := some clause.field }
  | .term => { draft with term := some clause.term }
  | .upTo => { draft with upTo := some clause.upTo }
  | .literal => { draft with literal := some clause.literal }

theorem Draft.knows_learn (clause : Clause) (draft : Draft) {key other : Key}
    (different : other ≠ key) : (draft.learn clause key).knows other = draft.knows other := by
  cases key <;> cases other <;> simp [learn, knows] at different ⊢

/-- Once every key is known, nothing is left of the values that a draft began with. -/
theorem Draft.foldl_learn_all (clause : Clause) (draft : Draft) :
    Key.all.foldl (Draft.learn clause) draft = clause.draft := rfl

theorem negationOfName_name (negation : Negation) :
    negationOfName negation.name = .ok negation := by
  cases negation <;> rfl

/-- Reading the value that is written for a key makes a draft learn that value. -/
theorem Draft.addJson_keyToJson (source : JsonSource) (clause : Clause) {draft : Draft} {key : Key}
    (unknown : draft.knows key = false) :
    draft.addJson source key.name (clause.keyToJson key) = .ok (draft.learn clause key) := by
  rw [addJson, Key.ofName?_name]
  simp only [unknown, Bool.false_eq_true, if_false]
  cases key with
  | negation =>
    simp only [keyToJson, negationOfJson, negationOfName_name]
    rfl
  | field => rfl
  | term => rfl
  | upTo => rfl
  | literal => rfl

/-- Keys that are written once each are learnt one after the other. -/
theorem Draft.foldlM_addJson_keys (source : JsonSource) (clause : Clause) {keys : List Key}
    (once : keys.Nodup) {draft : Draft} (unknown : ∀ key ∈ keys, draft.knows key = false) :
    (keys.map fun key => (key.name, clause.keyToJson key)).foldlM
        (fun draft member => draft.addJson source member.1 member.2) draft =
      .ok (keys.foldl (Draft.learn clause) draft) := by
  induction keys generalizing draft with
  | nil => rfl
  | cons key keys ih =>
    rcases List.nodup_cons.1 once with ⟨fresh, others⟩
    rw [List.map_cons, List.foldlM_cons,
      addJson_keyToJson source clause (unknown key List.mem_cons_self), List.foldl_cons]
    -- what was learnt from this key does not count as a repetition of a later one
    refine ih others fun other member => ?_
    have different : other ≠ key := by
      rintro rfl
      exact fresh member
    rw [knows_learn clause draft different]
    exact unknown other (List.mem_cons_of_mem _ member)

theorem ofJson_toJson (source : JsonSource) (clause : Clause) :
    ofJson source clause.toJson = .ok clause := by
  have once : Key.all.Nodup := by decide
  have unknown : ∀ key ∈ Key.all, ({} : Draft).knows key = false := by decide
  have learnt := Draft.foldlM_addJson_keys source clause once unknown
  rw [Draft.foldl_learn_all] at learnt
  rw [toJson, ofJson, ofMembers]
  simp only [learnt]
  rfl

/-! ## Lists -/

theorem listOfJson_listToJson (source : JsonSource) (clauses : List Clause) :
    listOfJson source (listToJson clauses) = .ok clauses := by
  have each : (clauses.map toJson).mapM (ofJson source) = .ok clauses := by
    rw [mapM_eq_ok_iff, List.forall₂_map_left_iff, List.forall₂_same]
    exact fun clause _ => ofJson_toJson source clause
  rw [listToJson, listOfJson, each]
  rfl

theorem plain_keyToJson (clause : Clause) (key : Key) : (clause.keyToJson key).Plain := by
  cases key with
  | negation => exact .string _
  | field => exact .string _
  | term => exact .string _
  | upTo => exact .string _
  | literal => exact .bool _

theorem plain_listToJson (clauses : List Clause) : (listToJson clauses).Plain := by
  refine .array fun item listed => ?_
  rcases List.mem_map.1 listed with ⟨clause, _, rfl⟩
  refine .object fun member named => ?_
  rcases List.mem_map.1 named with ⟨key, _, rfl⟩
  exact plain_keyToJson clause key

/-- Clauses are read back from the text in which they are exported. -/
theorem readJson_clausesText (clauses : List Clause) :
    readJson (OutputFormat.json.clausesText clauses) = .ok clauses := by
  rw [readJson, OutputFormat.clausesText, (plain_listToJson clauses).read_pretty (by decide)]
  simp only [listOfJson_listToJson]
  rfl

end Clause

/-! ## Files -/

/-- A file holds JSON if its name has an ending of these letters, in either case, behind a point
and something in front of it. -/
theorem ClauseFormat.ofPath_eq_json {path stem ending : Text}
    (named : fileName path = stem ++ '.' :: ending) (nonempty : stem ≠ [])
    (json : ending.map Char.toLower = "json".toList) : ofPath path = .json := by
  have size : ending.length = 4 := by
    simpa using congrArg List.length json
  have long : 0 < stem.length := List.length_pos_iff.2 nonempty
  have total : (stem ++ '.' :: ending).length = stem.length + 5 := by
    simp [size]
  have last : ((stem ++ '.' :: ending).drop stem.length).map Char.toLower = ".json".toList := by
    rw [List.drop_left, List.map_cons, json]
    rfl
  rw [ofPath, named, total]
  exact if_pos ⟨by omega, last⟩

namespace Command

theorem runParse_of_parseList {settings : Settings} {query : Text} {field : Option Text}
    {clauses : List Clause}
    (read : Clause.parseList query (field.getD settings.defaultField) = .ok clauses)
    (format : Option OutputFormat) :
    runParse settings query field format =
      { output := (format.getD settings.output).clausesText clauses
        log := Clause.parseLog query (.ok clauses) ++ settings.queryWarnings clauses } := by
  simp only [runParse, read]

/-- The clauses of a file are printed as the text that they are written as. -/
theorem output_runToQuery {settings : Settings} {contents : Text → Option Text}
    {file stored text : Text} {clauses : List Clause} (found : contents file = some stored)
    (read : (ClauseFormat.ofPath file).read? stored = some clauses)
    (written : Clause.toQuery clauses = .ok text) :
    (runToQuery settings contents file).output = text ++ ['\n'] ∧
      (runToQuery settings contents file).failure = none := by
  simp only [runToQuery, found, read, written, and_self]

/-- Clauses that are exported as JSON are the same clauses, value by value, when they are read from
a file with that text whose name says JSON.  So a query that is exported is printed from there as
the query that its clauses are written as. -/
theorem exported_read_back {file stem ending : Text}
    (named : fileName file = stem ++ '.' :: ending) (nonempty : stem ≠ [])
    (json : ending.map Char.toLower = "json".toList) :
    (∀ clauses : List Clause, (ClauseFormat.ofPath file).read?
        (OutputFormat.json.clausesText clauses) = some clauses) ∧
      ∀ (settings later : Settings) (contents stored : Text → Option Text) (query : Text)
        (field : Option Text) (clauses : List Clause),
        Clause.parseList query (field.getD settings.defaultField) = .ok clauses →
        (∀ clause ∈ clauses, clause.field ≠ []) →
        (run settings contents (.parse query field (some .json))).failure = none ∧
        (stored file = some (run settings contents (.parse query field (some .json))).output →
          ∃ text, Clause.toQuery clauses = .ok text ∧
            (run later stored (.toQuery file)).output = text ++ ['\n'] ∧
            (run later stored (.toQuery file)).failure = none) := by
  have reads (clauses : List Clause) : (ClauseFormat.ofPath file).read?
      (OutputFormat.json.clausesText clauses) = some clauses := by
    rw [ClauseFormat.ofPath_eq_json named nonempty json, ClauseFormat.read?,
      Clause.readJson_clausesText]
    rfl
  refine ⟨reads, ?_⟩
  intro settings later contents stored query field clauses read namedFields
  rw [run, runParse_of_parseList read]
  refine ⟨rfl, fun kept => ?_⟩
  have written : Clause.toQuery clauses = .ok (Clause.listText clauses) :=
    Clause.toQuery_eq_ok_iff.2 ⟨namedFields, rfl⟩
  exact ⟨_, written, output_runToQuery kept (reads clauses) written⟩

/-- A term with a quote, a backslash, a control character and a character beyond four hexadecimal
digits comes back unchanged from a file. -/
theorem exported_read_back_of_marked_term :
    Clause.parseList "pv:\"\\\"\\\\\x01😀\"".toList Field.standard =
      .ok [⟨.is, ['p', 'v'], ['"', '\\', '\x01', '😀'], [], true⟩] ∧
    (run {} (fun _ => some (run {} (fun _ => none)
        (.parse "pv:\"\\\"\\\\\x01😀\"".toList none (some .json))).output)
      (.toQuery "out/c.JSON".toList)).output = "+((+pv:\\\"\\\\\x01😀))\n".toList := by
  have read : Clause.parseList "pv:\"\\\"\\\\\x01😀\"".toList Field.standard =
      .ok [⟨.is, ['p', 'v'], ['"', '\\', '\x01', '😀'], [], true⟩] :=
    eq_ok_of_toOption (by decide +kernel)
  have written : Clause.toQuery [⟨.is, ['p', 'v'], ['"', '\\', '\x01', '😀'], [], true⟩] =
      .ok "+((+pv:\\\"\\\\\x01😀))".toList :=
    eq_ok_of_toOption (by decide +kernel)
  have named : fileName "out/c.JSON".toList = ['c'] ++ '.' :: "JSON".toList := by
    decide +kernel
  rcases exported_read_back named (by decide) (by decide) with ⟨_, commands⟩
  have kept := (commands {} {} (fun _ => none)
    (fun _ => some (run {} (fun _ => none)
      (.parse "pv:\"\\\"\\\\\x01😀\"".toList none (some .json))).output)
    _ none _ read (by decide)).2 rfl
  rcases kept with ⟨text, sameWritten, output, _⟩
  refine ⟨read, ?_⟩
  rw [output, ← Except.ok.inj (written.symm.trans sameWritten)]
  rfl

end Command

end AlarmQuery
