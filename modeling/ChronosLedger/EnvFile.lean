import Mathlib.Data.List.DropRight

namespace ChronosLedger.Cli

abbrev Text := List Char

-- White_Space, which Rust's trim goes by.
def whitespace (c : Char) : Bool :=
  9 ≤ c.toNat && c.toNat ≤ 13 || c.toNat ∈ [32,133,160,5760,8232,8233,8239,8287,12288] || 8192 ≤ c.toNat && c.toNat ≤ 8202

def trim (text : Text) : Text := (text.dropWhile whitespace).rdropWhile whitespace

def splitInclusive : Text → List Text
  | [] => []
  | c :: rest =>
    if c = '\n' then [c] :: splitInclusive rest
    else match splitInclusive rest with
      | [] => [[c]]
      | line :: more => (c :: line) :: more

def withoutEnd (last : Char) (line : Text) : Option Text := if line.getLast? = some last then some line.dropLast else none

def withoutReturn (line : Text) : Text := (withoutEnd '\r' line).getD line

-- A line ends with LF or CRLF, the last one perhaps with neither.
def lineOf (line : Text) : Text :=
  match withoutEnd '\n' line with
  | none => line
  | some line => withoutReturn line

def lines (text : Text) : List Text := (splitInclusive text).map lineOf

def withoutStart (start line : Text) : Option Text := if start <+: line then some (line.drop start.length) else none

def setting (key line : Text) : Option Text := (withoutStart key line).bind (withoutStart ['='])

def get (text key : Text) : Option Text := ((lines text).filterMap (setting key)).getLast?.map trim

def assignment (key value : Text) : Text := key ++ '=' :: value

def join (out : List Text) : Text := ['\n'].intercalate out ++ ['\n']

def replaced (key value : Text) (line : Text) : Text := if (setting key line).isSome then assignment key value else line

def settled (text key value : Text) : List Text :=
  let out := (lines text).map (replaced key value)
  if (lines text).any (fun line => (setting key line).isSome) then out else out ++ [assignment key value]

def set (text key value : Text) : Text := join (settled text key value)

variable {text key value line rest other : Text} {out : List Text}

theorem withoutStart_iff {start : Text} : withoutStart start line = some rest ↔ line = start ++ rest := by
  unfold withoutStart
  constructor
  · intro found
    obtain ⟨starts,dropped⟩ := Option.ite_none_right_eq_some.mp found
    obtain ⟨more,rfl⟩ := starts
    simpa using dropped
  · intro whole
    simp [whole]

theorem setting_iff : setting key line = some rest ↔ line = assignment key rest := by
  simp only [setting,Option.bind_eq_some_iff,withoutStart_iff,assignment]
  constructor
  · intro parts
    obtain ⟨sign,whole,is⟩ := parts
    rw [whole,is]
    rfl
  · intro whole
    exact ⟨'=' :: rest,whole,rfl⟩

theorem setting_assignment (key value : Text) : setting key (assignment key value) = some value := setting_iff.mpr rfl

-- What stands before the first = says which key a line sets.
theorem assignment_key (plain : '=' ∉ key) (plain' : '=' ∉ other) (same : assignment key value = assignment other rest) : key = other := by
  have start : ∀ key value : Text, '=' ∉ key → (assignment key value).takeWhile (fun c => c ≠ '=') = key := by
    intro key value plain
    have all : ∀ c ∈ key, decide (c ≠ '=') = true := by
      intro c member
      simp only [decide_eq_true_eq]
      rintro rfl
      exact plain member
    rw [assignment,List.takeWhile_append_of_pos all,List.takeWhile_cons_of_neg (by simp),List.append_nil]
  rw [← start key value plain,← start other rest plain',same]

theorem splitInclusive_line (plain : '\n' ∉ line) (text : Text) :
    splitInclusive (line ++ '\n' :: text) = (line ++ ['\n']) :: splitInclusive text := by
  induction line with
  | nil => simp [splitInclusive]
  | cons c line ih =>
    obtain ⟨other,plain⟩ : c ≠ '\n' ∧ '\n' ∉ line := by simpa [eq_comm] using plain
    simp [splitInclusive,other,ih plain]

theorem splitInclusive_parts (text : Text) : ∀ piece ∈ splitInclusive text, ∃ line, '\n' ∉ line ∧ (piece = line ∨ piece = line ++ ['\n']) := by
  induction text with
  | nil => simp [splitInclusive]
  | cons c rest ih =>
    intro piece member
    simp only [splitInclusive] at member
    split at member
    · rename_i feed
      rcases List.mem_cons.mp member with rfl | later
      · exact ⟨[],by simp,.inr (by simp [feed])⟩
      · exact ih piece later
    · rename_i other
      have unlike : '\n' ≠ c := Ne.symm other
      split at member
      · simp only [List.mem_singleton] at member
        exact ⟨[c],by simpa using unlike,.inl member⟩
      · rename_i first more is
        rcases List.mem_cons.mp member with rfl | later
        · obtain ⟨line,plain,whole⟩ := ih first (by simp [is])
          refine ⟨c :: line,by simp [unlike,plain],?_⟩
          exact whole.imp (fun same => by rw [same]) (fun same => by rw [same]; rfl)
        · exact ih piece (by simp [is,later])

theorem withoutEnd_concat (last : Char) (line : Text) : withoutEnd last (line ++ [last]) = some line := by simp [withoutEnd]

theorem withoutEnd_plain {last : Char} (plain : last ∉ line) : withoutEnd last line = none := by
  unfold withoutEnd
  rw [if_neg]
  intro ends
  exact plain (List.mem_of_getLast? ends)

theorem withoutReturn_parts (line : Text) : line = withoutReturn line ∨ line = withoutReturn line ++ ['\r'] := by
  unfold withoutReturn withoutEnd
  split
  · rename_i ends
    exact .inr (by simpa using (List.dropLast_append_getLast? '\r' ends).symm)
  · exact .inl rfl

theorem withoutReturn_plain (plain : '\n' ∉ line) : '\n' ∉ withoutReturn line := by
  intro member
  rcases withoutReturn_parts line with same | same
  · exact plain (same ▸ member)
  · exact plain (same ▸ List.mem_append_left _ member)

theorem lineOf_fed (line : Text) : lineOf (line ++ ['\n']) = withoutReturn line := by simp only [lineOf,withoutEnd_concat]

theorem lines_plain (text : Text) : ∀ line ∈ lines text, '\n' ∉ line := by
  intro line member
  obtain ⟨piece,inside,rfl⟩ := List.mem_map.mp member
  obtain ⟨line,plain,rfl | rfl⟩ := splitInclusive_parts text piece inside
  · simpa only [lineOf,withoutEnd_plain plain] using plain
  · rw [lineOf_fed]
    exact withoutReturn_plain plain

theorem join_cons (line : Text) (some_ : out ≠ []) : join (line :: out) = line ++ '\n' :: join out := by
  obtain ⟨first,more,rfl⟩ := List.exists_cons_of_ne_nil some_
  simp [join]

-- Read again, what was written a line each comes back a line each.
theorem lines_join (some_ : out ≠ []) (plain : ∀ line ∈ out, '\n' ∉ line) : lines (join out) = out.map withoutReturn := by
  induction out with
  | nil => exact absurd rfl some_
  | cons line more ih =>
    obtain ⟨first,later⟩ := List.forall_mem_cons.mp plain
    by_cases last : more = []
    · subst last
      have whole : join [line] = line ++ '\n' :: [] := by simp [join]
      rw [whole,lines,splitInclusive_line first]
      simp [splitInclusive,lineOf_fed]
    · rw [join_cons line last,lines,splitInclusive_line first,List.map_cons,lineOf_fed]
      show withoutReturn line :: lines (join more) = _
      rw [ih last later]
      rfl

def sets (key line : Text) : Bool := (setting key line).isSome

-- What a line says the key is.
def reads (key line : Text) : Option Text := (setting key line).map trim

theorem get_reads (text key : Text) : get text key = ((lines text).filterMap (reads key)).getLast? := by
  have each : (lines text).filterMap (reads key) = ((lines text).filterMap (setting key)).map trim := by
    rw [List.map_filterMap]
    rfl
  rw [get,each,List.getLast?_map]

theorem trim_return (value : Text) : trim (value ++ ['\r']) = trim value := by
  have blank : whitespace '\r' = true := by decide
  unfold trim
  rw [List.dropWhile_append]
  split
  · rename_i empty
    have all : value.dropWhile whitespace = [] := by simpa using empty
    rw [all,List.dropWhile_cons_of_pos blank,List.dropWhile_nil]
  · exact List.rdropWhile_concat_pos whitespace _ _ blank

theorem setting_return (key line : Text) : setting key (line ++ ['\r']) = (setting key line).map (fun rest => rest ++ ['\r']) := by
  cases found : setting key (line ++ ['\r']) with
  | some rest =>
    have whole := setting_iff.mp found
    rcases rest.eq_nil_or_concat with rfl | ⟨front,last,rfl⟩
    · have ends := congrArg List.getLast? whole
      simp [assignment] at ends
    · have parts : line ++ ['\r'] = assignment key front ++ [last] := by simpa [assignment] using whole
      obtain ⟨same,rfl⟩ := List.append_singleton_inj.mp parts
      rw [setting_iff.mpr same]
      simp
  | none =>
    cases there : setting key line with
    | none => rfl
    | some rest =>
      have whole : line ++ ['\r'] = assignment key (rest ++ ['\r']) := by simp [setting_iff.mp there,assignment]
      rw [setting_iff.mpr whole] at found
      cases found

theorem reads_withoutReturn (key line : Text) : reads key (withoutReturn line) = reads key line := by
  rcases withoutReturn_parts line with same | same
  · rw [← same]
  · have ended : setting key line = (setting key (withoutReturn line)).map (fun rest => rest ++ ['\r']) := by
      rw [← setting_return,← same]
    unfold reads
    rw [ended]
    cases setting key (withoutReturn line) with
    | none => rfl
    | some rest => simp [trim_return]

theorem sets_withoutReturn (key line : Text) : sets key (withoutReturn line) = sets key line := by
  have same := congrArg Option.isSome (reads_withoutReturn key line)
  simpa [reads,sets] using same

theorem settled_some (text key value : Text) : settled text key value ≠ [] := by
  unfold settled
  dsimp only
  split
  · rename_i found
    obtain ⟨line,member,_⟩ := List.any_eq_true.mp found
    have any := List.ne_nil_of_mem member
    simpa using any
  · simp

theorem settled_plain (plain : '\n' ∉ key) (plain' : '\n' ∉ value) : ∀ line ∈ settled text key value, '\n' ∉ line := by
  have assigned : '\n' ∉ assignment key value := by simp [assignment,plain,plain']
  have mapped : ∀ line ∈ (lines text).map (replaced key value), '\n' ∉ line := by
    intro line member
    obtain ⟨old,there,rfl⟩ := List.mem_map.mp member
    unfold replaced
    split
    · exact assigned
    · exact lines_plain text old there
  intro line member
  unfold settled at member
  dsimp only at member
  split at member
  · exact mapped line member
  · rcases List.mem_append.mp member with old | new
    · exact mapped line old
    · obtain rfl := List.mem_singleton.mp new
      exact assigned

theorem lines_set (plain : '\n' ∉ key) (plain' : '\n' ∉ value) : lines (set text key value) = (settled text key value).map withoutReturn :=
  lines_join (settled_some text key value) (settled_plain plain plain')

theorem get_set (plain : '\n' ∉ key) (plain' : '\n' ∉ value) (asked : Text) :
    get (set text key value) asked = ((settled text key value).filterMap (reads asked)).getLast? := by
  have same : reads asked ∘ withoutReturn = reads asked := funext (reads_withoutReturn asked)
  rw [get_reads,lines_set plain plain',List.filterMap_map,same]

theorem settled_assigned (text key value : Text) : assignment key value ∈ settled text key value := by
  unfold settled
  dsimp only
  split
  · rename_i found
    obtain ⟨line,member,sets⟩ := List.any_eq_true.mp found
    exact List.mem_map.mpr ⟨line,member,by simp [replaced,sets]⟩
  · simp

theorem settled_reads {said : Text} (member : said ∈ (settled text key value).filterMap (reads key)) : said = trim value := by
  have assigned : reads key (assignment key value) = some (trim value) := by simp [reads,setting_assignment]
  obtain ⟨line,there,is⟩ := List.mem_filterMap.mp member
  have old : ∀ line ∈ (lines text).map (replaced key value), reads key line = some said → said = trim value := by
    intro line there is
    obtain ⟨before,_,rfl⟩ := List.mem_map.mp there
    unfold replaced at is
    split at is
    · exact (Option.some.inj (assigned.symm.trans is)).symm
    · rename_i unset
      simp [reads,Option.not_isSome_iff_eq_none.mp unset] at is
  unfold settled at there
  dsimp only at there
  split at there
  · exact old line there is
  · rcases List.mem_append.mp there with before | new
    · exact old line before is
    · obtain rfl := List.mem_singleton.mp new
      exact (Option.some.inj (assigned.symm.trans is)).symm

theorem get_own (plain : '\n' ∉ key) (plain' : '\n' ∉ value) : get (set text key value) key = some (trim value) := by
  have said : trim value ∈ (settled text key value).filterMap (reads key) :=
    List.mem_filterMap.mpr ⟨_,settled_assigned text key value,by simp [reads,setting_assignment]⟩
  rw [get_set plain plain']
  cases last : ((settled text key value).filterMap (reads key)).getLast? with
  | none =>
    rw [List.getLast?_eq_none_iff.mp last] at said
    cases said
  | some found => rw [settled_reads (List.mem_of_getLast? last)]

theorem reads_another (plain : '=' ∉ key) (plain' : '=' ∉ other) (another : other ≠ key) (value : Text) : reads other (assignment key value) = none := by
  unfold reads
  cases found : setting other (assignment key value) with
  | none => rfl
  | some rest => exact absurd (assignment_key plain plain' (setting_iff.mp found)) (Ne.symm another)

theorem get_other (feed : '\n' ∉ key) (feed' : '\n' ∉ value) (plain : '=' ∉ key) (plain' : '=' ∉ other) (another : other ≠ key) :
    get (set text key value) other = get text other := by
  have mapped : reads other ∘ replaced key value = reads other := by
    funext line
    simp only [Function.comp,replaced]
    split
    · rename_i sets
      obtain ⟨rest,is⟩ := Option.isSome_iff_exists.mp sets
      rw [reads_another plain plain' another,setting_iff.mp is,reads_another plain plain' another]
    · rfl
  rw [get_set feed feed',get_reads]
  unfold settled
  dsimp only
  split
  · rw [List.filterMap_map,mapped]
  · rw [List.filterMap_append,List.filterMap_map,mapped]
    simp [reads_another plain plain' another]

-- The lines that set other keys, the comments and the blanks.
def others (key : Text) (lines : List Text) : List Text := lines.filter (fun line => !sets key line)

theorem others_replaced (key value : Text) (lines : List Text) : others key (lines.map (replaced key value)) = others key lines := by
  induction lines with
  | nil => rfl
  | cons line rest ih =>
    have same : others key (rest.map (replaced key value)) = others key rest := ih
    unfold others at same ⊢
    rw [List.map_cons,List.filter_cons,List.filter_cons,same]
    by_cases is : (setting key line).isSome
    · simp [replaced,is,sets,setting_assignment]
    · simp [replaced,is,sets]

theorem others_settled (text key value : Text) : others key (settled text key value) = others key (lines text) := by
  have assigned : sets key (assignment key value) = true := by simp [sets,setting_assignment]
  unfold settled
  dsimp only
  split
  · exact others_replaced key value _
  · have old := others_replaced key value (lines text)
    unfold others at old ⊢
    rw [List.filter_append,old]
    simp [assigned]

end ChronosLedger.Cli
