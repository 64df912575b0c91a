import ChronosLedger.Library.Json
namespace JsonText

variable {c : Char} {rest : List Char}

theorem hexValue_digit {d : Nat} (small : d < 16) : hexValue (Nat.digitChar d) = some d := by
  have all : ∀ d : Fin 16, hexValue (Nat.digitChar d) = some d.val := by decide
  exact all ⟨d,small⟩

theorem string_quote : string (quote :: rest) = some ([],rest) := by
  rw [string.eq_def]
  exact if_pos rfl

theorem string_plain (open_ : c ≠ quote) (free : c ≠ backslash) (printed : ¬ c.toNat < 32) : string (c :: rest) = before c (string rest) := by
  rw [string.eq_def]
  simp only [open_,free,printed,if_false]

theorem string_short {e plain : Char} (one : e ≠ 'u') (stands : unescape e = some plain) :
    string (backslash :: e :: rest) = before plain (string rest) := by
  rw [string,if_neg (by decide),if_pos rfl,stands]
  intro _ _ _ _ _ same
  exact absurd same one

theorem string_unit {n : Nat} (control : n < 32) :
    string (backslash :: 'u' :: '0' :: '0' :: Nat.digitChar (n/16) :: Nat.digitChar (n%16) :: rest) = before (Char.ofNat n) (string rest) := by
  have high : hexValue (Nat.digitChar (n/16)) = some (n/16) := hexValue_digit (by omega)
  have low : hexValue (Nat.digitChar (n%16)) = some (n%16) := hexValue_digit (by omega)
  have zero : hexValue '0' = some 0 := by decide
  have whole : unit '0' '0' (Nat.digitChar (n/16)) (Nat.digitChar (n%16)) = some n := by
    unfold unit
    rw [zero,high,low]
    change some (((0*16+0)*16+n/16)*16+n%16) = some n
    exact congrArg some (by omega)
  have notHigh : isHigh n = false := by
    unfold isHigh
    exact decide_eq_false (by omega)
  have notLow : isLow n = false := by
    unfold isLow
    exact decide_eq_false (by omega)
  rw [string]
  rw [if_neg (by decide),if_pos rfl]
  simp only [whole,notHigh,notLow,Bool.false_eq_true,if_false]

theorem string_escape (c : Char) (rest : List Char) : string (escape c ++ rest) = before c (string rest) := by
  have named {n : Nat} (same : c.toNat = n) : Char.ofNat n = c := by rw [← same,Char.ofNat_toNat]
  unfold escape
  split
  · rename_i same
    rw [same]
    exact string_short (by decide) (by decide)
  split
  · rename_i same
    rw [same]
    exact string_short (by decide) (by decide)
  split
  · rename_i same
    rw [← named same]
    exact string_short (by decide) (by decide)
  split
  · rename_i same
    rw [← named same]
    exact string_short (by decide) (by decide)
  split
  · rename_i same
    rw [← named same]
    exact string_short (by decide) (by decide)
  split
  · rename_i same
    rw [← named same]
    exact string_short (by decide) (by decide)
  split
  · rename_i same
    rw [← named same]
    exact string_short (by decide) (by decide)
  split
  · rename_i control
    have whole := @string_unit rest _ control
    rwa [Char.ofNat_toNat] at whole
  · rename_i open_ free _ _ _ _ _ printed
    exact string_plain open_ free printed

theorem string_escaped (text rest : List Char) : string (text.flatMap escape ++ quote :: rest) = some (text,rest) := by
  induction text with
  | nil => exact string_quote
  | cons c text ih =>
    rw [List.flatMap_cons,List.append_assoc,string_escape,ih]
    rfl

-- What follows a value inside an object.
def Ends (rest : List Char) : Prop := ∃ c tail, rest = c :: tail ∧ (c = ',' ∨ c = '}')

theorem toDigits_head {n : Nat} (positive : 0 < n) : ∀ tail, Nat.toDigits 10 n ≠ '0' :: tail := by
  induction n using Nat.strongRecOn with
  | _ n ih =>
    intro tail same
    by_cases small : n < 10
    · rw [Nat.toDigits_of_lt_base small] at same
      have all : ∀ d : Fin 10, 0 < d.val → Nat.digitChar d ≠ '0' := by decide
      exact all ⟨n,small⟩ positive (List.cons.inj same).1
    · rw [Nat.toDigits_of_base_le (by decide) (by omega)] at same
      cases first : Nat.toDigits 10 (n/10) with
      | nil => exact Nat.toDigits_ne_nil first
      | cons d digits =>
        rw [first] at same
        have zero := (List.cons.inj same).1
        rw [zero] at first
        exact ih (n/10) (by omega) (by omega) digits first

theorem digitsOf_append {digits : List Char} (all : ∀ c ∈ digits, c.isDigit = true) (ends : Ends rest) : digitsOf (digits ++ rest) = digits := by
  obtain ⟨c,tail,rfl,either⟩ := ends
  have stops : c.isDigit = false := by rcases either with rfl | rfl <;> rfl
  unfold digitsOf
  rw [List.takeWhile_append_of_pos all,List.takeWhile_cons_of_neg (by simp [stops]),List.append_nil]

theorem integerPart_digits (n : Nat) (ends : Ends rest) : integerPart (Nat.toDigits 10 n ++ rest) = some (Nat.toDigits 10 n) := by
  unfold integerPart
  rw [digitsOf_append (fun c member => Nat.isDigit_of_mem_toDigits (by decide) (by decide) member) ends]
  by_cases zero : n = 0
  · rw [zero]
    rfl
  · have first := toDigits_head (Nat.pos_of_ne_zero zero)
    split
    · rename_i none_
      exact absurd none_ Nat.toDigits_ne_nil
    · rename_i tail same
      exact absurd same (first tail)
    · rfl

theorem unsigned_digits (negative : Bool) (n : Nat) (ends : Ends rest) :
    unsigned negative (Nat.toDigits 10 n ++ rest) = some (.scalar (.int (if negative then -(n : Int) else n)),rest) := by
  have nothing : fraction rest = [] ∧ exponent rest = [] := by
    obtain ⟨c,tail,rfl,either⟩ := ends
    rcases either with rfl | rfl <;> exact ⟨rfl,rfl⟩
  unfold unsigned
  rw [integerPart_digits n ends]
  simp only [Option.bind_eq_bind,Option.bind_some,List.drop_left,nothing.1,nothing.2,List.length_nil,List.drop_zero,Nat.add_zero,and_self,if_true,
    Nat.ofDigitChars_ten_toDigits]

theorem number_integer (n : Int) (ends : Ends rest) : number (integer n ++ rest) = some (.scalar (.int n),rest) := by
  unfold integer
  split
  · rename_i negative
    change unsigned true (Nat.toDigits 10 n.natAbs ++ rest) = _
    rw [unsigned_digits true _ ends]
    simp only [if_true]
    rw [show -(n.natAbs : Int) = n by omega]
  · rename_i negative
    have head : number (Nat.toDigits 10 n.natAbs ++ rest) = unsigned false (Nat.toDigits 10 n.natAbs ++ rest) := by
      cases digits : Nat.toDigits 10 n.natAbs with
      | nil => exact absurd digits Nat.toDigits_ne_nil
      | cons d tail =>
        have digit : d.isDigit = true := Nat.isDigit_of_mem_toDigits (b := 10) (n := n.natAbs) (by decide) (by decide) (by rw [digits]; exact List.mem_cons_self)
        unfold number
        split
        · rename_i same
          cases (List.cons.inj same).1
          cases digit
        · rfl
    rw [head,unsigned_digits false _ ends]
    simp only [Bool.false_eq_true,if_false]
    rw [show (n.natAbs : Int) = n by omega]

theorem value_number {fuel : Nat} {d : Char} {tail rest : List Char} {read : Json} (own : d ≠ quote ∧ d ≠ '{' ∧ d ≠ '[')
    (plain : d.isDigit = true ∨ d = '-' ∧ ∃ e more, tail = e :: more ∧ e.isDigit = true)
    (same : number (d :: tail) = some (read,rest)) : value (fuel+1) (d :: tail) = some (read,rest) := by
  rw [value]
  rw [if_neg own.1,if_neg own.2.1,if_neg own.2.2]
  split
  all_goals try exact same
  all_goals
    rename_i text
    cases text
    rcases plain with digit | ⟨minus,e,more,second,digit⟩
    · cases digit
    · cases minus <;> (cases second; cases digit)

theorem value_integer (fuel : Nat) (n : Int) (ends : Ends rest) : value (fuel+1) (integer n ++ rest) = some (.scalar (.int n),rest) := by
  have read := number_integer n ends
  unfold integer at read ⊢
  have digit {c : Char} (member : c ∈ Nat.toDigits 10 n.natAbs) : c.isDigit = true :=
    Nat.isDigit_of_mem_toDigits (by decide) (by decide) member
  cases digits : Nat.toDigits 10 n.natAbs with
  | nil => exact absurd digits Nat.toDigits_ne_nil
  | cons d tail =>
    have first : d.isDigit = true := digit (by rw [digits]; exact List.mem_cons_self)
    rw [digits] at read
    split at read
    · rename_i negative
      rw [if_pos negative]
      exact value_number (by decide) (.inr ⟨rfl,d,tail ++ rest,rfl,first⟩) read
    · rename_i negative
      rw [if_neg negative]
      refine value_number ⟨?_,?_,?_⟩ (.inl first) read
      all_goals
        intro same
        rw [same] at first
        cases first

theorem value_scalar (fuel : Nat) (s : Scalar) (ends : Ends rest) : value (fuel+1) (scalar s ++ rest) = some (.scalar s,rest) := by
  cases s with
  | null =>
    rw [scalar,value.eq_def]
    rfl
  | bool held =>
    cases held
    · rw [scalar,value.eq_def]
      rfl
    · rw [scalar,value.eq_def]
      rfl
  | int n => exact value_integer fuel n ends
  | str text =>
    have read := string_escaped text.toList rest
    rw [scalar,quoted,List.cons_append,List.append_assoc,List.singleton_append,value,if_pos rfl,read]
    simp

theorem skipBlanks_solid {c : Char} (solid : isBlank c = false) (tail : List Char) : skipBlanks (c :: tail) = c :: tail := by
  unfold skipBlanks
  rw [List.dropWhile_cons_of_neg (by simp [solid])]

theorem isBlank_digit {c : Char} (digit : c.isDigit = true) : isBlank c = false := by
  have range := (Char.isDigit_iff_toNat.mp digit).1
  have low : 48 ≤ c.toNat := range
  unfold isBlank
  refine decide_eq_false (fun blank => ?_)
  rcases blank with rfl | one | one | one
  · exact absurd low (by decide)
  all_goals omega

theorem scalar_solid (s : Scalar) : ∃ c tail, scalar s = c :: tail ∧ isBlank c = false := by
  cases s with
  | null => exact ⟨_,_,rfl,rfl⟩
  | bool held => cases held <;> exact ⟨_,_,rfl,rfl⟩
  | int n =>
    rw [scalar]
    unfold integer
    split
    · exact ⟨_,_,rfl,rfl⟩
    · cases digits : Nat.toDigits 10 n.natAbs with
      | nil => exact absurd digits Nat.toDigits_ne_nil
      | cons d tail =>
        have digit : d.isDigit = true := Nat.isDigit_of_mem_toDigits (b := 10) (n := n.natAbs) (by decide) (by decide) (by rw [digits]; exact List.mem_cons_self)
        exact ⟨d,tail,rfl,isBlank_digit digit⟩
  | str text => exact ⟨_,_,rfl,by decide⟩

theorem Ends.comma (tail : List Char) : Ends (',' :: tail) := ⟨_,_,rfl,.inl rfl⟩
theorem Ends.brace (tail : List Char) : Ends ('}' :: tail) := ⟨_,_,rfl,.inr rfl⟩

def parsed (entry : String × Scalar) : String × Json := (entry.1,.scalar entry.2)

theorem members_member (fuel : Nat) (entry : String × Scalar) (ends : Ends rest) :
    members (fuel+2) (member entry ++ rest) = (match skipBlanks rest with
      | ',' :: more => (members (fuel+1) (skipBlanks more)).map (fun pair => (parsed entry :: pair.1,pair.2))
      | '}' :: tail => some ([parsed entry],tail)
      | _ => none) := by
  obtain ⟨c,tail,solid,full⟩ := scalar_solid entry.2
  have written : member entry ++ rest = quote :: (entry.1.toList.flatMap escape ++ quote :: ':' :: (scalar entry.2 ++ rest)) := by
    simp [member,quoted]
  have read := string_escaped entry.1.toList (':' :: (scalar entry.2 ++ rest))
  have body := value_scalar fuel entry.2 ends
  have colon : skipBlanks (':' :: (scalar entry.2 ++ rest)) = ':' :: (scalar entry.2 ++ rest) := skipBlanks_solid (by decide) _
  have start : skipBlanks (scalar entry.2 ++ rest) = scalar entry.2 ++ rest := by
    rw [solid,List.cons_append,skipBlanks_solid full]
  rw [written,members,if_pos rfl,read]
  simp only [Option.bind_eq_bind,Option.bind_some,colon,start,body,String.ofList_toList]
  rfl

def entries (record : List (String × Scalar)) : List Char := List.intercalate [','] (record.map member)

theorem entries_cons (entry next : String × Scalar) (record : List (String × Scalar)) :
    entries (entry :: next :: record) = member entry ++ ',' :: entries (next :: record) := by
  simp [entries]

theorem entries_solid (entry : String × Scalar) (record : List (String × Scalar)) (rest : List Char) :
    skipBlanks (entries (entry :: record) ++ rest) = entries (entry :: record) ++ rest := by
  unfold entries
  rw [List.map_cons,member,quoted,List.cons_append,List.intercalate_cons_cons_left]
  exact skipBlanks_solid (by decide) _

theorem members_entries (entry : String × Scalar) (record : List (String × Scalar)) {fuel : Nat} (enough : record.length+2 ≤ fuel)
    (rest : List Char) : members fuel (entries (entry :: record) ++ '}' :: rest) = some ((entry :: record).map parsed,rest) := by
  induction record generalizing entry fuel with
  | nil =>
    obtain ⟨less,rfl⟩ := Nat.exists_eq_add_of_le' enough
    have alone : entries [entry] = member entry := List.intercalate_singleton
    rw [alone]
    refine (members_member (less+0) entry (.brace rest)).trans ?_
    rw [skipBlanks_solid (by decide)]
    rfl
  | cons next record ih =>
    obtain ⟨less,rfl⟩ := Nat.exists_eq_add_of_le' enough
    have later := @ih next (less+record.length+2) (by omega)
    rw [entries_cons,List.append_assoc,List.cons_append]
    refine (members_member (less+record.length+1) entry (.comma _)).trans ?_
    rw [skipBlanks_solid (by decide)]
    change (members (less+record.length+2) (skipBlanks (entries (next :: record) ++ '}' :: rest))).map _ = _
    rw [entries_solid,later]
    rfl

theorem entries_long (record : List (String × Scalar)) : record.length ≤ (entries record).length := by
  induction record with
  | nil => exact Nat.zero_le _
  | cons entry record ih =>
    cases record with
    | nil =>
      have full : 1 ≤ (member entry).length := by simp [member,quoted]
      simpa [entries] using full
    | cons next record =>
      rw [entries_cons,List.length_append,List.length_cons,List.length_cons]
      exact Nat.le_add_left_of_le (Nat.succ_le_succ ih)

theorem value_compact {fuel : Nat} (record : List (String × Scalar)) (rest : List Char) (enough : record.length+2 ≤ fuel+1) :
    value (fuel+1) (compact record ++ rest) = some (.obj (record.map parsed),rest) := by
  have text : compact record ++ rest = '{' :: (entries record ++ '}' :: rest) := by
    simp [compact,entries]
  rw [text,value,if_neg (by decide),if_pos rfl]
  cases record with
  | nil => rfl
  | cons entry record =>
    have read := members_entries entry record (show record.length+2 ≤ fuel by rw [List.length_cons] at enough; omega) rest
    rw [entries_solid]
    have opens : ∃ tail, entries (entry :: record) ++ '}' :: rest = quote :: tail := by
      unfold entries
      rw [List.map_cons,member,quoted,List.cons_append,List.intercalate_cons_cons_left]
      exact ⟨_,rfl⟩
    split
    · rename_i tail same
      obtain ⟨other,starts⟩ := opens
      rw [starts] at same
      exact absurd (List.cons.inj same).1 (by decide)
    · rw [read]
      rfl

-- What is written of a record reads back as the record, entry for entry.
theorem loads_compact (record : List (String × Scalar)) {rest : List Char} (blank : skipBlanks rest = []) :
    loads (compact record ++ rest) = some (.obj (record.map parsed)) := by
  have long : record.length+2 ≤ (compact record ++ rest).length+1 := by
    have inner : record.length ≤ (List.intercalate [','] (record.map member)).length := entries_long record
    unfold compact
    rw [List.length_append,List.length_cons,List.length_append,List.length_singleton]
    omega
  have start : skipBlanks (compact record ++ rest) = compact record ++ rest := skipBlanks_solid (by decide) _
  unfold loads
  rw [start,value_compact record rest long]
  exact if_pos blank

theorem pair_oneLine {a b d : Char} (first : a.toNat ≠ 10) (second : b.toNat ≠ 10) (written : d ∈ [a,b]) : d.toNat ≠ 10 := by
  simp only [List.mem_cons,List.not_mem_nil,or_false] at written
  rcases written with rfl | rfl
  · exact first
  · exact second

theorem escape_oneLine {c d : Char} (written : d ∈ escape c) : d.toNat ≠ 10 := by
  have digit : ∀ n : Fin 32, (Nat.digitChar (n.val/16)).toNat ≠ 10 ∧ (Nat.digitChar (n.val%16)).toNat ≠ 10 := by decide
  unfold escape at written
  split at written
  · exact pair_oneLine (by decide) (by decide) written
  split at written
  · exact pair_oneLine (by decide) (by decide) written
  split at written
  · exact pair_oneLine (by decide) (by decide) written
  split at written
  · exact pair_oneLine (by decide) (by decide) written
  split at written
  · exact pair_oneLine (by decide) (by decide) written
  split at written
  · exact pair_oneLine (by decide) (by decide) written
  split at written
  · exact pair_oneLine (by decide) (by decide) written
  split at written
  · rename_i control
    have both := digit ⟨c.toNat,control⟩
    simp only [List.mem_cons,List.not_mem_nil,or_false] at written
    rcases written with rfl | rfl | rfl | rfl | rfl | rfl
    · decide
    · decide
    · decide
    · decide
    · exact both.1
    · exact both.2
  · rename_i same _ _ _
    rw [List.mem_singleton.mp written]
    assumption

theorem quoted_oneLine {text : String} {d : Char} (written : d ∈ quoted text) : d.toNat ≠ 10 := by
  unfold quoted at written
  rcases List.mem_cons.mp written with rfl | inner
  · decide
  · rcases List.mem_append.mp inner with body | last
    · obtain ⟨c,_,from_⟩ := List.mem_flatMap.mp body
      exact escape_oneLine from_
    · rw [List.mem_singleton.mp last]
      decide

theorem scalar_oneLine {s : Scalar} {d : Char} (written : d ∈ scalar s) : d.toNat ≠ 10 := by
  cases s with
  | null =>
    have all : (scalar .null).all (fun c => c.toNat ≠ 10) = true := by decide
    exact of_decide_eq_true (List.all_eq_true.mp all d written)
  | bool held =>
    have all : (scalar (.bool held)).all (fun c => c.toNat ≠ 10) = true := by cases held <;> decide
    exact of_decide_eq_true (List.all_eq_true.mp all d written)
  | int n =>
    have digit {c : Char} (member : c ∈ Nat.toDigits 10 n.natAbs) : c.toNat ≠ 10 := by
      have range := (Char.isDigit_iff_toNat.mp (Nat.isDigit_of_mem_toDigits (by decide) (by decide) member)).1
      have low : 48 ≤ c.toNat := range
      omega
    rw [scalar] at written
    unfold integer at written
    split at written
    · rcases List.mem_cons.mp written with rfl | inner
      · decide
      · exact digit inner
    · exact digit written
  | str text => exact quoted_oneLine written

theorem member_oneLine {entry : String × Scalar} {d : Char} (written : d ∈ member entry) : d.toNat ≠ 10 := by
  rcases List.mem_append.mp written with key | value
  · exact quoted_oneLine key
  · rcases List.mem_cons.mp value with rfl | held
    · decide
    · exact scalar_oneLine held

theorem entries_oneLine (record : List (String × Scalar)) {d : Char} (written : d ∈ entries record) : d.toNat ≠ 10 := by
  induction record with
  | nil => exact absurd written List.not_mem_nil
  | cons entry record ih =>
    cases record with
    | nil =>
      have alone : entries [entry] = member entry := List.intercalate_singleton
      rw [alone] at written
      exact member_oneLine written
    | cons next record =>
      rw [entries_cons] at written
      rcases List.mem_append.mp written with first | later
      · exact member_oneLine first
      · rcases List.mem_cons.mp later with rfl | held
        · decide
        · exact ih held

-- Nothing written of a record ends its line.
theorem compact_oneLine {record : List (String × Scalar)} {d : Char} (written : d ∈ compact record) : d.toNat ≠ 10 := by
  unfold compact at written
  rcases List.mem_cons.mp written with rfl | inner
  · decide
  · rcases List.mem_append.mp inner with body | last
    · exact entries_oneLine record body
    · rw [List.mem_singleton.mp last]
      decide

def newline : Char := Char.ofNat 10

-- The lines of a file, each with the newline that ends it.
def lines : List Char → List (List Char)
  | [] => []
  | c :: rest =>
    if c = newline then [c] :: lines rest
    else match lines rest with
      | [] => [[c]]
      | first :: others => (c :: first) :: others

theorem lines_line {body : List Char} (oneLine : ∀ c ∈ body, c.toNat ≠ 10) (rest : List Char) :
    lines (body ++ newline :: rest) = (body ++ [newline]) :: lines rest := by
  induction body with
  | nil => rw [List.nil_append,lines,if_pos rfl,List.nil_append]
  | cons c body ih =>
    have other : c ≠ newline := fun same => oneLine c List.mem_cons_self (by rw [same]; rfl)
    rw [List.cons_append,lines,if_neg other,ih (fun d member => oneLine d (List.mem_cons_of_mem _ member))]
    rfl

theorem lines_flatten {bodies : List (List Char)} (oneLine : ∀ body ∈ bodies, ∀ c ∈ body, c.toNat ≠ 10) :
    lines (bodies.map (fun body => body ++ [newline])).flatten = bodies.map (fun body => body ++ [newline]) := by
  induction bodies with
  | nil => rfl
  | cons body bodies ih =>
    rw [List.map_cons,List.flatten_cons,List.append_assoc,List.singleton_append,lines_line (oneLine body List.mem_cons_self),
      ih (fun other member => oneLine other (List.mem_cons_of_mem _ member))]

end JsonText
