import LibEvRpc.Proofs.Dictionary
import LibEvRpc.Proofs.IniLine
import LibEvRpc.Config.ConfigParser
import Mathlib.Data.List.Dedup

/-! # What a configuration file says

The lines of a file are joined to logical ones, each of which has a meaning of its own. The sections and
the keys among them are set in their order, and the last setting of a key counts. Errors count only
behind the last setting. A join that is open when the file ends is lost.
-/

namespace LibEvRpc

open Scanf

/-! ## Logical lines -/

/-- How the lines of a file end. -/
inductive Ending where
  | whole
  | tooLong
  | emptyString
deriving DecidableEq

/-- A line without the blanks at its end. -/
def cropped (line : Bytes) : Bytes := (CString.ofBuffer line).rdropWhile isSpace

/-- The logical lines behind a text that is still to be continued, and why there are no more. A line
of one character does not count. -/
def logicalLines (pending : Bytes) : List (Bytes × Bool) → List Bytes × Ending
  | [] => ([], .whole)
  | (line, feof) :: lines =>
      let string := CString.ofBuffer line
      if string.length = 0 then ([], .emptyString)
      else if string.length = 1 then logicalLines pending lines
      else if string.getLast? ≠ some Ascii.newline ∧ !feof then ([], .tooLong)
      else if (cropped line).getLast? = some Ascii.backslash then
        logicalLines (pending ++ (cropped line).dropLast) lines
      else
        let (rest, ending) := logicalLines [] lines
        ((pending ++ cropped line) :: rest, ending)

/-- What the lines of a file say. -/
def statuses (lines : List Bytes) : List LineStatus := lines.map fun line => lineMeaning (strstrip line)

/-- The keys that are set in a section and behind it, with their values. -/
def assignments (currentSection : Bytes) : List LineStatus → List (Bytes × Option Bytes)
  | [] => []
  | .lineSection name :: rest => (name, none) :: assignments name rest
  | .lineValue key value :: rest =>
      (currentSection ++ Ascii.colon :: key, some value) :: assignments currentSection rest
  | _ :: rest => assignments currentSection rest

def lastValue (settings : List (Bytes × Option Bytes)) (key : Bytes) : Option (Option Bytes) :=
  (settings.reverse.find? fun setting => setting.1 = key).map Prod.snd

/-- The last line that is not empty or a comment is an error. -/
def EndsInError (meanings : List LineStatus) : Prop :=
  (meanings.filter fun status => status ≠ .lineEmpty ∧ status ≠ .lineComment).getLast? =
    some .lineError

instance (meanings : List LineStatus) : Decidable (EndsInError meanings) :=
  inferInstanceAs (Decidable (_ = _))

/-! ## Reading a file -/

/-- `fgets` takes the front of a file, and something if there is something. -/
theorem fgets_spec (size : ℕ) (file : Bytes) :
    (fgets size file).1 ++ (fgets size file).2.1 = file ∧
      (0 < size → file ≠ [] → (fgets size file).1 ≠ []) := by
  induction size generalizing file with
  | zero => exact ⟨rfl, fun positive => absurd positive (Nat.lt_irrefl 0)⟩
  | succ size ih =>
    cases file with
    | nil => exact ⟨rfl, fun _ nonempty => absurd rfl nonempty⟩
    | cons char file =>
      rw [fgets]
      split
      · exact ⟨rfl, fun _ _ => List.cons_ne_nil _ _⟩
      · exact ⟨congrArg (char :: ·) (ih file).1, fun _ _ => List.cons_ne_nil _ _⟩

/-- A file is read to its end. -/
theorem flatMap_fileLines {fuel : ℕ} {file : Bytes} (enough : file.length ≤ fuel) :
    (fileLines fuel file).flatMap Prod.fst = file := by
  induction fuel generalizing file with
  | zero =>
    rw [List.length_eq_zero_iff.mp (Nat.le_zero.mp enough)]
    rfl
  | succ fuel ih =>
    obtain ⟨whole, progress⟩ := fgets_spec (asciiLineSz - 1) file
    rw [fileLines]
    generalize fgets (asciiLineSz - 1) file = result at *
    obtain ⟨line, rest, feof⟩ := result
    cases line with
    | nil =>
      by_contra some
      exact progress (by decide) (fun none => some none.symm) rfl
    | cons char line =>
      have shorter := congrArg List.length whole
      rw [List.length_append, List.length_cons] at shorter
      dsimp only
      rw [List.flatMap_cons, ih (by dsimp only at shorter; omega)]
      exact whole

/-! ## Processing the lines -/

theorem lastValue_append (before : List (Bytes × Option Bytes)) (key : Bytes) (value : Option Bytes) :
    lastValue (before ++ [(key, value)]) =
      Function.update (lastValue before) key (some value) := by
  funext wanted
  rw [lastValue, List.reverse_append, Function.update_apply]
  by_cases same : wanted = key
  · rw [if_pos same, same]
    simp
  · rw [if_neg same, lastValue]
    simp [Ne.symm same]

theorem endsInError_append (before : List LineStatus) (status : LineStatus) :
    EndsInError (before ++ [status]) ↔
      if status = .lineEmpty ∨ status = .lineComment then EndsInError before else status = .lineError := by
  rw [EndsInError, List.filter_append, EndsInError]
  cases status with
  | lineEmpty => simp
  | lineComment => simp
  | lineError => simp
  | lineSection name => simp
  | lineValue key value => simp

namespace Loading

variable {state : Loading}

/-- The lines set their keys in their order, and only the last line that counts can leave an error. -/
theorem process_run (valid : state.dict.Valid) {settled : List (Bytes × Option Bytes)}
    (get : state.dict.get = lastValue settled) {before : List LineStatus}
    (errs : state.errs ≠ 0 ↔ EndsInError before) (meanings : List LineStatus) :
    ∃ last, meanings.foldlM process state = some last ∧ last.dict.Valid ∧
      last.dict.get = lastValue (settled ++ assignments state.currentSection meanings) ∧
      (last.errs ≠ 0 ↔ EndsInError (before ++ meanings)) := by
  induction meanings generalizing state settled before with
  | nil => exact ⟨state, rfl, valid, by rw [get, assignments, List.append_nil], by rwa [List.append_nil]⟩
  | cons status meanings ih =>
    have next := endsInError_append before status
    rw [List.append_cons before]
    cases status with
    | lineEmpty => exact ih valid get (errs.trans (next.trans (by rw [if_pos (.inl rfl)])).symm)
    | lineComment => exact ih valid get (errs.trans (next.trans (by rw [if_pos (.inr rfl)])).symm)
    | lineError =>
      have counted : state.errs + 1 ≠ 0 ↔ EndsInError (before ++ [.lineError]) :=
        iff_of_true (Nat.succ_ne_zero _) (next.mpr (by simp))
      exact @ih { state with errs := state.errs + 1 } valid settled get _ counted
    | lineSection name =>
      obtain ⟨dict, set, dictValid, dictGet⟩ := valid.set name none
      have forgotten : 0 ≠ 0 ↔ EndsInError (before ++ [.lineSection name]) :=
        iff_of_false (not_not.mpr rfl) fun ends => by simpa using next.mp ends
      rw [get, ← lastValue_append] at dictGet
      rw [assignments, List.append_cons settled, List.foldlM_cons, process, set]
      exact @ih ⟨dict, name, state.fullLine, 0⟩ dictValid _ dictGet _ forgotten
    | lineValue key value =>
      obtain ⟨dict, set, dictValid, dictGet⟩ :=
        valid.set (state.currentSection ++ Ascii.colon :: key) (some value)
      have forgotten : 0 ≠ 0 ↔ EndsInError (before ++ [.lineValue key value]) :=
        iff_of_false (not_not.mpr rfl) fun ends => by simpa using next.mp ends
      rw [get, ← lastValue_append] at dictGet
      rw [assignments, List.append_cons settled, List.foldlM_cons, process, set]
      exact @ih ⟨dict, state.currentSection, state.fullLine, 0⟩ dictValid _ dictGet _ forgotten

/-- What is done with a logical line. -/
def consume (state : Loading) (line : Bytes) : Option Loading :=
  if Overflows (strstrip line) then none else state.process (lineMeaning (strstrip line))

theorem consume_run (lines : List Bytes) :
    lines.foldlM consume state =
      if ∃ line ∈ lines, Overflows (strstrip line) then none
      else (statuses lines).foldlM process state := by
  induction lines generalizing state with
  | nil => rfl
  | cons line lines ih =>
    rw [List.foldlM_cons, consume, statuses, List.map_cons, List.foldlM_cons, ← statuses]
    simp only [List.exists_mem_cons_iff]
    by_cases overflows : Overflows (strstrip line)
    · rw [if_pos overflows, if_pos (.inl overflows)]
      rfl
    · rw [if_neg overflows]
      simp only [overflows, false_or, ih]
      split
      · exact Option.bind_fun_none _
      · rfl

/-- A turn of the loop joins its line, or processes what it has joined. -/
theorem turn_eq (line : Bytes) (feof : Bool) :
    state.turn line feof =
      let string := CString.ofBuffer line
      if string.length = 0 then none
      else if string.length = 1 then some (state, true)
      else if string.getLast? ≠ some Ascii.newline ∧ !feof then
        some ({ state with errs := state.errs + 1 }, false)
      else if (cropped line).getLast? = some Ascii.backslash then
        some ({ state with fullLine := some (state.fullLine.getD [] ++ (cropped line).dropLast) }, true)
      else
        (state.consume (state.fullLine.getD [] ++ cropped line)).map fun state =>
          ({ state with fullLine := none }, true) := by
  rw [turn, cropped]
  generalize CString.ofBuffer line = string
  match length : string.length with
  | 0 => simp only [length, if_true]
  | 1 => simp only [length, one_ne_zero, if_false, if_true]
  | count + 2 =>
    simp only [length, if_false, Nat.reduceEqDiff]
    split
    · rfl
    generalize string.rdropWhile isSpace = line
    by_cases multiLine : line.getLast? = some Ascii.backslash
    · have nonempty : line ≠ [] := by
        rintro rfl
        contradiction
      have positive := List.length_pos_of_ne_nil nonempty
      have fits : (state.fullLine.getD [] ++ line.dropLast).length <
          line.length - 1 + (state.fullLine.getD []).length + 1 := by
        rw [List.length_append, List.length_dropLast]
        omega
      simp only [multiLine, if_true, if_neg nonempty, if_pos fits]
    · have fits : (state.fullLine.getD [] ++ line).length <
          (if line = [] then 1 else line.length) + (state.fullLine.getD []).length + 1 := by
        rw [List.length_append]
        split
        · next empty =>
          rw [empty, List.length_nil]
          omega
        · omega
      simp only [multiLine, if_false, if_pos fits]
      rw [consume, iniparserLine_of_fits fits]
      split <;> rfl

/-- How the outcome of a run depends on the end of the file. -/
def outcome (state : Loading) : Ending → Option (Dictionary × Bool)
  | .whole => some (state.dict, decide (state.errs ≠ 0))
  | .tooLong => some (state.dict, true)
  | .emptyString => none

/-- What is done with a status leaves a join alone, and does not depend on it. -/
theorem process_fullLine (fullLine : Option Bytes) (status : LineStatus) :
    ({ state with fullLine } : Loading).process status =
      (state.process status).map fun last => { last with fullLine } := by
  cases status with
  | lineEmpty => rfl
  | lineComment => rfl
  | lineError => rfl
  | lineSection name =>
    rw [process, process, Option.map_map]
    rfl
  | lineValue key value =>
    rw [process, process, Option.map_map]
    rfl

theorem consume_fullLine (fullLine : Option Bytes) (line : Bytes) :
    ({ state with fullLine } : Loading).consume line =
      (state.consume line).map fun last => { last with fullLine } := by
  rw [consume, consume]
  split
  · rfl
  · exact process_fullLine fullLine _

/-- The loop processes the logical lines, and what it gives depends on how they end. -/
theorem loop_eq (lines : List (Bytes × Bool)) :
    (state.loop lines).map (fun last => (last.dict, decide (last.errs ≠ 0))) =
      ((logicalLines (state.fullLine.getD []) lines).1.foldlM consume { state with fullLine := none }).bind
        fun last => last.outcome (logicalLines (state.fullLine.getD []) lines).2 := by
  induction lines generalizing state with
  | nil => rfl
  | cons pair lines ih =>
    obtain ⟨line, feof⟩ := pair
    rw [loop, turn_eq, logicalLines]
    dsimp only
    split
    · rfl
    split
    · exact ih
    split
    · simp [outcome]
    split
    · exact @ih { state with fullLine := some _ }
    · have joined := @consume_fullLine state none (state.fullLine.getD [] ++ cropped line)
      rw [List.foldlM_cons, joined]
      cases state.consume (state.fullLine.getD [] ++ cropped line) with
      | none => rfl
      | some next => exact @ih { next with fullLine := none }

end Loading

/-! ## Files -/

def linesOf (file : Bytes) : List Bytes × Ending := logicalLines [] (fileLines file.length file)

/-- The keys that a file sets, with their values. -/
def settings (file : Bytes) : List (Bytes × Option Bytes) := assignments [] (statuses (linesOf file).1)

/-- Loading a file has no result. -/
def Undefined (file : Bytes) : Prop :=
  (linesOf file).2 = .emptyString ∨ ∃ line ∈ (linesOf file).1, Overflows (strstrip line)

def Rejected (file : Bytes) : Prop :=
  (linesOf file).2 = .tooLong ∨ EndsInError (statuses (linesOf file).1)

instance (file : Bytes) : Decidable (Undefined file) := inferInstanceAs (Decidable (_ ∨ _))

instance (file : Bytes) : Decidable (Rejected file) := inferInstanceAs (Decidable (_ ∨ _))

/-- What a file is loaded to, if it is. -/
theorem iniparserLoad_of_file (file : Bytes) :
    Undefined file ∧ iniparserLoad (some file) = none ∨
      ¬ Undefined file ∧ Rejected file ∧ iniparserLoad (some file) = some none ∨
      ¬ Undefined file ∧ ¬ Rejected file ∧ ∃ d, iniparserLoad (some file) = some (some d) ∧ d.Valid ∧
        d.get = lastValue (settings file) := by
  have empty : (Dictionary.new 0).get = lastValue [] := funext (Dictionary.get_new 0)
  have clean : 0 ≠ 0 ↔ EndsInError [] := by decide
  obtain ⟨last, run, valid, get, errs⟩ := @Loading.process_run ⟨.new 0, [], none, 0⟩
    (Dictionary.valid_new 0) [] empty [] clean (statuses (linesOf file).1)
  have loaded := @Loading.loop_eq ⟨.new 0, [], none, 0⟩ (fileLines file.length file)
  rw [Loading.consume_run, Option.getD_none, ← linesOf, run] at loaded
  have projected : iniparserLoad (some file) =
      ((Loading.loop ⟨.new 0, [], none, 0⟩ (fileLines file.length file)).map fun last =>
        (last.dict, decide (last.errs ≠ 0))).map fun pair => if pair.2 then none else some pair.1 := by
    rw [iniparserLoad, Option.map_map]
    refine congrArg (Option.map · _) (funext fun state => ?_)
    simp
  rw [projected, loaded, Undefined, Rejected]
  by_cases overflows : ∃ line ∈ (linesOf file).1, Overflows (strstrip line)
  · exact .inl ⟨.inr overflows, by rw [if_pos overflows]; rfl⟩
  rw [if_neg overflows, Option.bind_some]
  cases ending : (linesOf file).2 with
  | emptyString => exact .inl ⟨.inl rfl, rfl⟩
  | tooLong => exact .inr (.inl ⟨by simpa using overflows, .inl rfl, rfl⟩)
  | whole =>
    have defined : ¬ (Ending.whole = .emptyString ∨ ∃ line ∈ (linesOf file).1, Overflows (strstrip line)) :=
      by simpa using overflows
    by_cases rejected : EndsInError (statuses (linesOf file).1)
    · have failed : decide (last.errs ≠ 0) = true := decide_eq_true (errs.mpr rejected)
      exact .inr (.inl ⟨defined, .inr rejected, by rw [Loading.outcome, failed]; rfl⟩)
    · have fine : decide (last.errs ≠ 0) = false := decide_eq_false fun failed => rejected (errs.mp failed)
      refine .inr (.inr ⟨defined, by simpa using rejected, last.dict, ?_, valid, get⟩)
      rw [Loading.outcome, fine]
      rfl

theorem isSome_lastValue (settled : List (Bytes × Option Bytes)) (key : Bytes) :
    (lastValue settled key).isSome ↔ key ∈ settled.map Prod.fst := by
  rw [lastValue, Option.isSome_map, List.find?_isSome, List.mem_map]
  simp

/-- Every file is read to its end. Loading it has no result exactly when a line starts with a zero byte
or the name of a section overflows its buffer; it is rejected exactly when a line is too long or the
last line that counts is an error. Otherwise each key of the file is kept once, with its last value. -/
theorem iniparserLoad_eq (file : Bytes) :
    (fileLines file.length file).flatMap Prod.fst = file ∧
      (iniparserLoad (some file) = none ↔ Undefined file) ∧
      (iniparserLoad (some file) = some none ↔ ¬ Undefined file ∧ Rejected file) ∧
      ∀ d, iniparserLoad (some file) = some (some d) →
        d.get = lastValue (settings file) ∧ d.keys.Nodup ∧
          ∀ key, key ∈ d.keys ↔ key ∈ (settings file).map Prod.fst := by
  refine ⟨flatMap_fileLines le_rfl, ?_⟩
  rcases iniparserLoad_of_file file with ⟨undefined, loaded⟩ | ⟨defined, rejected, loaded⟩ |
    ⟨defined, accepted, d, loaded, valid, get⟩
  · simp [undefined, loaded]
  · simp [defined, rejected, loaded]
  · refine ⟨by simp [defined, loaded], by simp [accepted, loaded], fun other same => ?_⟩
    rw [loaded] at same
    cases same
    refine ⟨get, valid.distinct, fun key => ?_⟩
    rw [valid.mem_keys, get, isSome_lastValue]

/-! ## Reading a configuration -/

/-- A setting of a section or of a key in a section, in lower case. -/
theorem strlwc_of_mem_assignments {meanings : List LineStatus}
    (normal : ∀ status ∈ meanings, status.Normal) {currentSection : Bytes}
    (lower : strlwc currentSection = currentSection) {setting : Bytes × Option Bytes}
    (member : setting ∈ assignments currentSection meanings) : strlwc setting.1 = setting.1 := by
  induction meanings generalizing currentSection with
  | nil => contradiction
  | cons status meanings ih =>
    obtain ⟨first, rest⟩ := List.forall_mem_cons.mp normal
    cases status with
    | lineEmpty => exact ih rest lower member
    | lineComment => exact ih rest lower member
    | lineError => exact ih rest lower member
    | lineSection name =>
      rcases List.mem_cons.mp member with rfl | later
      · exact first.1
      · exact ih rest first.1 later
    | lineValue key value =>
      rcases List.mem_cons.mp member with rfl | later
      · rw [strlwc, List.map_append, List.map_cons, ← strlwc, ← strlwc, lower, first.1.1]
        rfl
      · exact ih rest lower later

theorem strlwc_of_mem_settings {file : Bytes} {setting : Bytes × Option Bytes}
    (member : setting ∈ settings file) : strlwc setting.1 = setting.1 := by
  apply strlwc_of_mem_assignments _ rfl member
  intro status present
  obtain ⟨line, _, rfl⟩ := List.mem_map.mp present
  exact normal_lineMeaning (head_strstrip line)

/-- What a configuration file gives for a key of any case: nothing if the file is rejected. -/
def reading (file secKey : Bytes) : Option (Option Bytes) :=
  if Rejected file then none else lastValue (settings file) (strlwc secKey)

/-- The keys of a section are counted once each, however often the file sets them. -/
theorem length_sectionEntries {d : Dictionary} {settled : List (Bytes × Option Bytes)} (valid : d.Valid)
    (get : d.get = lastValue settled) (s : Bytes) :
    (d.sectionEntries s).length =
      ((settled.map Prod.fst).dedup.filter fun key => (s ++ [Ascii.colon]).isPrefixOf key).length := by
  have same : d.keys.Perm (settled.map Prod.fst).dedup := by
    refine (List.perm_ext_iff_of_nodup valid.distinct (List.nodup_dedup _)).mpr fun key => ?_
    refine (valid.mem_keys key).trans ?_
    rw [get, isSome_lastValue, List.mem_dedup]
  rw [← (same.filter _).length_eq, Dictionary.keys, List.filter_map, List.length_map,
    Dictionary.sectionEntries]
  rfl

namespace ConfigParser

/-- What the parser gives for a file that it could read: a key of any case has its last value, or the
default if there is none or the file is rejected. A section has no value, and the program reads through
a null pointer when it takes one for a number or a boolean. -/
theorem get_of_initConfigParser {file : Bytes} {parser : ConfigParser}
    (loaded : initConfigParser (some file) = some parser) (secKey : Bytes) :
    (∀ setting ∈ settings file, strlwc setting.1 = setting.1) ∧
      (∀ defaultVal, parser.iniGetString secKey defaultVal = (reading file secKey).getD defaultVal) ∧
      (∀ defaultVal, parser.iniGetInt secKey defaultVal =
        match reading file secKey with
        | none => some defaultVal
        | some value => value.map fun str => (strtol str).toInt32) ∧
      (∀ defaultVal, parser.iniGetBool secKey defaultVal =
        match reading file secKey with
        | none => some defaultVal
        | some value => value.map fun str =>
            Dictionary.saysYes (str.headD 0) || defaultVal && !Dictionary.saysNo (str.headD 0)) ∧
      ∀ defaultVal, parser.getSecKeysNum secKey defaultVal =
        if Rejected file then defaultVal
        else if (reading file secKey).isSome then
          Int32.ofNat (((settings file).map Prod.fst).dedup.filter fun key =>
            (secKey ++ [Ascii.colon]).isPrefixOf key).length
        else 0 := by
  refine ⟨fun setting => strlwc_of_mem_settings, ?_⟩
  rw [initConfigParser] at loaded
  rcases iniparserLoad_of_file file with ⟨_, result⟩ | ⟨_, rejected, result⟩ |
    ⟨_, accepted, d, result, valid, get⟩
  · rw [result] at loaded
    contradiction
  · rw [result] at loaded
    cases loaded
    rw [reading, if_pos rejected]
    refine ⟨fun _ => rfl, fun _ => rfl, fun defaultVal => rfl, fun defaultVal => ?_⟩
    rw [if_pos rejected]
    rfl
  · rw [result] at loaded
    cases loaded
    have found : d.getString secKey = reading file secKey := by
      rw [Dictionary.getString, get, reading, if_neg accepted]
    refine ⟨fun defaultVal => ?_, fun defaultVal => ?_, fun defaultVal => ?_, fun defaultVal => ?_⟩
    · rw [← found]
      rfl
    · change d.getInt secKey defaultVal = _
      rw [Dictionary.getInt, found]
      rcases reading file secKey with _ | _ | str <;> rfl
    · change (d.getBoolean secKey _).map _ = _
      rw [Dictionary.getBoolean, found]
      rcases reading file secKey with _ | _ | str
      · cases defaultVal <;> rfl
      · rfl
      · dsimp only [Option.map_some]
        cases Dictionary.saysYes (str.headD 0) <;> cases Dictionary.saysNo (str.headD 0) <;>
          cases defaultVal <;> rfl
    · change Int32.ofNat (d.getSecNKeys secKey) = _
      rw [if_neg accepted, Dictionary.getSecNKeys, Dictionary.findEntry, found,
        length_sectionEntries valid get]
      split <;> rfl

/-- The file `[Ab]`, `C=1;`, `c=0\`, `x2 ` sets `ab:c` to `0x2`. -/
theorem get_of_initConfigParser_last :
    let file : Bytes := [91, 65, 98, 93, 10, 67, 61, 49, 59, 10, 99, 61, 48, 92, 10, 120, 50, 32, 10]
    ∃ loaded : (initConfigParser (some file)).isSome,
      ((initConfigParser (some file)).get loaded).iniGetInt [65, 66, 58, 67] 7 = some 2 := by
  refine ⟨by decide +kernel, ?_⟩
  rw [(get_of_initConfigParser (Option.some_get _).symm _).2.2.1]
  decide +kernel

end ConfigParser

end LibEvRpc
