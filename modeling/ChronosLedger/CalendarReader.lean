import ChronosLedger.CalendarFeed
import ChronosLedger.IsoForms
import Mathlib.Data.List.Forall2
import Mathlib.Data.List.Induction

namespace ChronosLedger.CalendarSync
open Replacing

variable {zone : Zone} {text line : Text} {c : Char}

-- What a calendar parser does: CRLF ends a line, CRLF and a space break one, and
-- a backslash takes the meaning from what follows it.
def unfoldLines (text : Text) : Text := replace (crlf ++ [' ']) [] text

def unescape : Text → Text
  | '\\' :: 'n' :: rest => '\n' :: unescape rest
  | '\\' :: 'N' :: rest => '\n' :: unescape rest
  | '\\' :: c :: rest => c :: unescape rest
  | c :: rest => c :: unescape rest
  | [] => []

def lineEnds (text : Text) : Text := replace ['\r'] ['\n'] (replace crlf ['\n'] text)

def propertyName (line : Text) : Text := line.takeWhile (fun c => c ≠ ':' && c ≠ ';')

def valueOf (name : String) (line : Text) : Option Text :=
  if propertyName line = name.toList then some (line.drop (name.toList.length+1)) else none

def values (name : String) (lines : List Text) : List Text := lines.filterMap (valueOf name)

-- What one character is written as.
def escaped (c : Char) : Text :=
  if c = '\\' then ['\\','\\'] else if c = ';' then ['\\',';'] else if c = ',' then ['\\',','] else [c]

theorem marked_each (text : Text) :
    replace [','] ['\\',','] (replace [';'] ['\\',';'] (replace ['\\'] ['\\','\\'] text)) = text.flatMap escaped := by
  rw [replace_one,replace_one,replace_one,List.flatMap_assoc,List.flatMap_assoc]
  apply List.flatMap_congr
  intro c _
  unfold escaped
  by_cases backslash : c = '\\'
  · simp [backslash]
  · by_cases semicolon : c = ';'
    · simp [semicolon]
    · by_cases comma : c = ','
      · simp [comma]
      · simp [backslash,semicolon,comma]

theorem escaped_head (c : Char) : escaped c = [c] ∨ ∃ d, escaped c = ['\\',d] ∧ d ≠ 'n' ∧ d ≠ 'N' ∧ d = c := by
  unfold escaped
  split
  · exact .inr ⟨'\\',rfl,by decide,by decide,by simp [*]⟩
  · split
    · exact .inr ⟨';',rfl,by decide,by decide,by simp [*]⟩
    · split
      · exact .inr ⟨',',rfl,by decide,by decide,by simp [*]⟩
      · exact .inl rfl

def lineBreak (c : Char) : Text := if c = '\r' ∨ c = '\n' then ['\\','n'] else escaped c

def lineEnd (c : Char) : Char := if c = '\r' then '\n' else c

theorem lineEnds_nil : lineEnds [] = [] := rfl

-- A CRLF is one break, and every other character is written for itself.
theorem escape_crlf (rest : Text) : escape ('\r' :: '\n' :: rest) = '\\' :: 'n' :: escape rest := by
  have pair : replace crlf ['\\','n'] ('\r' :: '\n' :: rest.flatMap escaped) = '\\' :: 'n' :: replace crlf ['\\','n'] (rest.flatMap escaped) :=
    replace_match
  unfold escape
  simp only [marked_each,List.flatMap_cons]
  rw [show escaped '\r' = ['\r'] from rfl,show escaped '\n' = ['\n'] from rfl,List.singleton_append,List.singleton_append,pair]
  simp [replace_one]

theorem lineEnds_crlf (rest : Text) : lineEnds ('\r' :: '\n' :: rest) = '\n' :: lineEnds rest := by
  have pair : replace crlf ['\n'] ('\r' :: '\n' :: rest) = '\n' :: replace crlf ['\n'] rest := replace_match
  unfold lineEnds
  rw [pair]
  simp [replace_one]

def Lone (c : Char) (rest : Text) : Prop := ¬ (c = '\r' ∧ rest.head? = some '\n')

theorem lone_plain (lone : Lone c text) (new : Text) : replace crlf new (c :: text) = c :: replace crlf new text := by
  apply replace_step
  intro found
  obtain ⟨same,found⟩ := List.cons_prefix_cons.mp found
  cases text with
  | nil => cases List.prefix_nil.mp found
  | cons d rest => exact lone ⟨same.symm,by simp [(List.cons_prefix_cons.mp found).1.symm]⟩

theorem escaped_first (c : Char) (rest : Text) : ((c :: rest).flatMap escaped).head? = some '\n' ↔ c = '\n' := by
  rcases escaped_head c with same | ⟨d,same,_,_,rfl⟩
  · simp [same]
  · have other : d ≠ '\n' := by
      rintro rfl
      cases same
    simp [same,other]

theorem escape_cons (lone : Lone c text) : escape (c :: text) = lineBreak c ++ escape text := by
  unfold escape
  simp only [marked_each,List.flatMap_cons]
  have passed : replace crlf ['\\','n'] (escaped c ++ text.flatMap escaped) = escaped c ++ replace crlf ['\\','n'] (text.flatMap escaped) := by
    by_cases carriage : c = '\r'
    · subst carriage
      apply lone_plain
      intro ⟨_,second⟩
      cases text with
      | nil => cases second
      | cons d rest => exact lone ⟨rfl,by simp [(escaped_first d rest).mp second]⟩
    · apply replace_plain
      rcases escaped_head c with same | ⟨d,same,_,_,rfl⟩
      · simpa [same] using Ne.symm carriage
      · simpa [same] using Ne.symm carriage
  rw [passed]
  unfold lineBreak
  by_cases ends : c = '\r' ∨ c = '\n'
  · rw [if_pos ends]
    rcases ends with rfl | rfl <;> simp [replace_one,escaped]
  · rw [if_neg ends]
    obtain ⟨carriage,feed⟩ := not_or.mp ends
    rcases escaped_head c with same | ⟨d,same,_,_,rfl⟩
    · simp [replace_one,same,carriage,feed]
    · simp [replace_one,same,carriage,feed]

theorem lineEnds_cons (lone : Lone c text) : lineEnds (c :: text) = lineEnd c :: lineEnds text := by
  unfold lineEnds
  rw [lone_plain lone]
  unfold lineEnd
  by_cases carriage : c = '\r' <;> simp [replace_one,carriage]

theorem unescape_lineBreak (c : Char) (rest : Text) : unescape (lineBreak c ++ rest) = lineEnd c :: unescape rest := by
  unfold lineBreak lineEnd
  by_cases carriage : c = '\r'
  · subst carriage
    rfl
  · by_cases feed : c = '\n'
    · subst feed
      rfl
    · rw [if_neg (by simp [carriage,feed]),if_neg carriage]
      unfold escaped
      by_cases backslash : c = '\\'
      · subst backslash
        rfl
      · by_cases semicolon : c = ';'
        · subst semicolon
          rfl
        · by_cases comma : c = ','
          · subst comma
            rfl
          · simp [backslash,semicolon,comma,unescape]

-- Two characters at a time, so that a CRLF is met whole.
theorem unescape_escape (text : Text) : unescape (escape text) = lineEnds text := by
  induction text using List.twoStepInduction with
  | nil => rfl
  | singleton c =>
    have lone : Lone c [] := by simp [Lone]
    rw [escape_cons lone,lineEnds_cons lone,unescape_lineBreak]
    rfl
  | cons_cons c d rest ih others =>
    by_cases both : c = '\r' ∧ d = '\n'
    · obtain ⟨rfl,rfl⟩ := both
      rw [escape_crlf,lineEnds_crlf]
      exact congrArg _ ih
    · have lone : Lone c (d :: rest) := by simpa [Lone] using both
      rw [escape_cons lone,lineEnds_cons lone,unescape_lineBreak,others d]

-- No line break is left in what is escaped, whatever the text held.
theorem escape_unbroken (text : Text) : '\r' ∉ escape text ∧ '\n' ∉ escape text := by
  unfold escape
  refine ⟨replace_one_plain _ (by simp) (.inr (replace_one_plain _ (by simp) (.inl rfl))),replace_one_plain _ (by simp) (.inl rfl)⟩

theorem octets_append (one two : Text) : octets (one ++ two) = octets one+octets two := by simp [octets]

theorem octets_cons (c : Char) (text : Text) : octets (c :: text) = c.utf8Size+octets text := by simp [octets]

-- The first part has the whole line to spend, every later one a space less.
def Fits (parts : List Text) : Prop := ∀ first more, parts = first :: more → octets first ≤ 75 ∧ ∀ part ∈ more, octets part ≤ 74

theorem Fits.snoc {parts : List Text} {chunk : Text} (fits : Fits parts) (room : octets chunk ≤ if parts = [] then 75 else 74) :
    Fits (parts ++ [chunk]) := by
  intro first more same
  cases parts with
  | nil =>
    obtain ⟨rfl,rfl⟩ := List.cons.inj same
    exact ⟨by simpa using room,by simp⟩
  | cons head rest =>
    obtain ⟨rfl,rfl⟩ := List.cons.inj same
    obtain ⟨front,back⟩ := fits head rest rfl
    refine ⟨front,?_⟩
    intro part member
    rcases List.mem_append.mp member with old | new
    · exact back part old
    · cases List.mem_singleton.mp new
      simpa using room

-- What the loop of _fold holds once it has taken some of the line.
structure Folded (s : Folding) (taken : Text) : Prop where
  whole : s.parts.flatten ++ s.chunk = taken
  used : s.used = octets s.chunk
  room : octets s.chunk ≤ s.budget
  budget : s.budget = if s.parts = [] then 75 else 74
  fits : Fits s.parts
  full : ∀ part ∈ s.parts, part ≠ []

theorem Folded.take {s : Folding} {taken : Text} (folded : Folded s taken) (c : Char) : Folded (s.take c) (taken ++ [c]) := by
  have small := Char.utf8Size_le_four c
  have budget : 74 ≤ s.budget := by
    rw [folded.budget]
    split <;> decide
  unfold Folding.take
  split
  · rename_i over_
    have some_ : s.chunk ≠ [] := by
      intro none
      have weight := folded.used
      rw [none] at weight
      simp only [octets,List.map_nil,List.sum_nil] at weight
      omega
    refine ⟨?_,?_,?_,?_,?_,?_⟩
    · simp [← folded.whole]
    · simp [octets]
    · simp only [octets,List.map_cons,List.map_nil,List.sum_cons,List.sum_nil]
      omega
    · simp
    · exact folded.fits.snoc (folded.budget ▸ folded.room)
    · intro part member
      rcases List.mem_append.mp member with old | new
      · exact folded.full part old
      · cases List.mem_singleton.mp new
        exact some_
  · rename_i fits
    refine ⟨?_,?_,?_,folded.budget,folded.fits,folded.full⟩
    · simp [← folded.whole]
    · simp only [octets_append,folded.used]
      simp [octets]
    · rw [octets_append,← folded.used]
      simp only [octets,List.map_cons,List.map_nil,List.sum_cons,List.sum_nil]
      omega

theorem Folded.all {s : Folding} {taken : Text} (folded : Folded s taken) (line : Text) : Folded (line.foldl Folding.take s) (taken ++ line) := by
  induction line generalizing s taken with
  | nil => simpa using folded
  | cons c rest ih => simpa using ih (folded.take c)

structure Pieces (line : Text) : Prop where
  whole : (pieces line).flatten = line
  fits : Fits (pieces line)
  full : pieces line ≠ []
  opens : ∀ c rest, line = c :: rest → ∃ part more, pieces line = (c :: part) :: more

theorem pieces_parts (line : Text) : Pieces line := by
  by_cases short : octets line ≤ 75
  · have same : pieces line = [line] := by
      unfold pieces
      rw [if_pos short]
    refine ⟨by simp [same],?_,by simp [same],?_⟩
    · intro first more parts
      rw [same] at parts
      obtain ⟨rfl,rfl⟩ := List.cons.inj parts
      exact ⟨short,by simp⟩
    · intro c rest line_
      exact ⟨rest,[],by rw [same,line_]⟩
  · have empty : Folded ⟨[],[],0,75⟩ [] := ⟨rfl,rfl,by simp [octets],rfl,by simp [Fits],by simp⟩
    have folded := empty.all line
    rw [List.nil_append] at folded
    generalize state : line.foldl Folding.take ⟨[],[],0,75⟩ = s at folded
    have same : pieces line = s.parts ++ [s.chunk] := by
      unfold pieces
      rw [if_neg short,state]
    refine ⟨by simp [same,folded.whole],same ▸ folded.fits.snoc (folded.budget ▸ folded.room),by simp [same],?_⟩
    intro c rest line_
    have whole := folded.whole
    rw [line_] at whole
    cases parts : s.parts with
    | nil =>
      rw [parts,List.flatten_nil,List.nil_append] at whole
      exact ⟨rest,[],by simp [same,parts,whole]⟩
    | cons first more =>
      obtain ⟨d,part,rfl⟩ := List.exists_cons_of_ne_nil (folded.full first (parts ▸ List.mem_cons_self ..))
      rw [parts] at whole
      simp only [List.flatten_cons,List.cons_append,List.cons.injEq] at whole
      exact ⟨part,more ++ [s.chunk],by simp [same,parts,whole.1]⟩

-- A text of one line.
def Unbroken (text : Text) : Prop := '\r' ∉ text ∧ '\n' ∉ text

theorem Unbroken.append {one two : Text} (left : Unbroken one) (right : Unbroken two) : Unbroken (one ++ two) := by
  simp [Unbroken,left.1,left.2,right.1,right.2]

theorem Unbroken.join {one two : String} (left : Unbroken one.toList) (right : Unbroken two.toList) : Unbroken (one ++ two).toList := by
  rw [String.toList_append]
  exact left.append right

theorem number_unbroken (n : Int) : Unbroken (toString n).toList := by
  have nat : ∀ m : Nat, Unbroken (toString (m : Int)).toList := by
    intro m
    rw [toString_nat]
    have digit : ∀ c ∈ Nat.toDigits 10 m, c.isDigit = true := fun c member => Nat.isDigit_of_mem_toDigits (by decide) (by decide) member
    exact ⟨fun member => absurd (digit _ member) (by decide),fun member => absurd (digit _ member) (by decide)⟩
  cases n with
  | ofNat m => exact nat m
  | negSucc m =>
    have written : (toString (Int.negSucc m)).toList = '-' :: (toString ((m+1 : Nat) : Int)).toList := by
      rw [toString_nat,← Nat.toList_repr]
      change ("-" ++ Nat.repr (m+1)).toList = _
      rw [String.toList_append]
      rfl
    rw [written]
    have dash : Unbroken ['-'] := by simp [Unbroken]
    exact dash.append (nat (m+1))

theorem digits_unbroken (width : Nat) (n : Int) : Unbroken (digits width n).toList := by
  unfold digits
  apply Unbroken.join _ (number_unbroken n)
  rw [String.toList_ofList]
  simp [Unbroken,List.mem_replicate]

theorem basicDate_unbroken (day : Int) : Unbroken (basicDate day).toList :=
  ((digits_unbroken _ _).join (digits_unbroken _ _)).join (digits_unbroken _ _)

theorem basicTime_unbroken (at_ : Time) : Unbroken (basicTime at_).toList :=
  ((digits_unbroken _ _).join (digits_unbroken _ _)).join (digits_unbroken _ _)

theorem stamp_unbroken (instant : Int) : Unbroken (stamp instant).toList :=
  (((basicDate_unbroken _).join (by simp [Unbroken])).join (basicTime_unbroken _)).join (by simp [Unbroken])

-- A content line as the code writes one: a property's name, a colon or a
-- semicolon, and no line break.
structure Property (name : String) (line : Text) : Prop where
  named : propertyName line = name.toList
  unbroken : Unbroken line
  opens : ∃ c rest, line = c :: rest ∧ c ≠ ' '

theorem when_parts (zone : Zone) (row : DailyLedger) :
    Property "DTSTART" (whenLines zone row).1.toList ∧ Property "DTEND" (whenLines zone row).2.1.toList := by
  have opens : ∀ name value : String, (∃ c rest, name.toList = c :: rest ∧ c ≠ ' ') →
      ∃ c rest, (name ++ value).toList = c :: rest ∧ c ≠ ' ' := by
    intro name value ⟨c,rest,same,other⟩
    exact ⟨c,rest ++ value.toList,by rw [String.toList_append,same]; rfl,other⟩
  unfold whenLines
  split
  · exact ⟨⟨by rw [String.toList_append]; rfl,Unbroken.join (by simp [Unbroken]) (stamp_unbroken _),opens _ _ ⟨'D',_,rfl,by decide⟩⟩,
      ⟨by rw [String.toList_append]; rfl,Unbroken.join (by simp [Unbroken]) (stamp_unbroken _),opens _ _ ⟨'D',_,rfl,by decide⟩⟩⟩
  · exact ⟨⟨by rw [String.toList_append]; rfl,Unbroken.join (by simp [Unbroken]) (basicDate_unbroken _),opens _ _ ⟨'D',_,rfl,by decide⟩⟩,
      ⟨by rw [String.toList_append]; rfl,Unbroken.join (by simp [Unbroken]) (basicDate_unbroken _),opens _ _ ⟨'D',_,rfl,by decide⟩⟩⟩

def headerNames : List String := ["BEGIN","VERSION","PRODID","X-WR-CALNAME","X-WR-TIMEZONE","CALSCALE"]
def eventNames : List String := ["BEGIN","UID","DTSTAMP","DTSTART","DTEND","SUMMARY","LOCATION","DESCRIPTION","END"]

theorem header_properties (zone : Zone) (fullName : String) : List.Forall₂ Property headerNames (header zone fullName) := by
  have name := escape_unbroken (calendarName fullName).toList
  have key : Unbroken zone.key.toList := zone.named
  refine .cons ⟨rfl,by simp [Unbroken],'B',_,rfl,by decide⟩ (.cons ⟨rfl,by simp [Unbroken],'V',_,rfl,by decide⟩
    (.cons ⟨rfl,by simp [Unbroken],'P',_,rfl,by decide⟩ (.cons ⟨rfl,Unbroken.append (by simp [Unbroken]) name,'X',_,rfl,by decide⟩
    (.cons ⟨rfl,Unbroken.append (by simp [Unbroken]) key,'X',_,rfl,by decide⟩ (.cons ⟨rfl,by simp [Unbroken],'C',_,rfl,by decide⟩ .nil)))))

theorem event_properties (zone : Zone) (writtenAt : Int) (entry : Entry) :
    List.Forall₂ Property eventNames (eventLines zone writtenAt entry) := by
  obtain ⟨starts,ends⟩ := when_parts zone entry.row
  refine .cons ⟨rfl,by simp [Unbroken],'B',_,rfl,by decide⟩
    (.cons ⟨rfl,Unbroken.append (by simp [Unbroken]) (escape_unbroken _),'U',_,rfl,by decide⟩
    (.cons ⟨rfl,Unbroken.append (by simp [Unbroken]) (stamp_unbroken _),'D',_,rfl,by decide⟩ (.cons starts (.cons ends
    (.cons ⟨rfl,Unbroken.append (by simp [Unbroken]) (escape_unbroken _),'S',_,rfl,by decide⟩
    (.cons ⟨rfl,Unbroken.append (by simp [Unbroken]) (escape_unbroken _),'L',_,rfl,by decide⟩
    (.cons ⟨rfl,Unbroken.append (by simp [Unbroken]) (escape_unbroken _),'D',_,rfl,by decide⟩
    (.cons ⟨rfl,by simp [Unbroken],'E',_,rfl,by decide⟩ .nil))))))))

def contentNames (entries : List Entry) : List String := headerNames ++ entries.flatMap (fun _ => eventNames) ++ ["END"]

theorem content_properties (zone : Zone) (fullName : String) (writtenAt : Int) (entries : List Entry) :
    List.Forall₂ Property (contentNames entries) (contentLines zone fullName writtenAt entries) := by
  have events : List.Forall₂ Property (entries.flatMap (fun _ => eventNames)) (entries.flatMap (eventLines zone writtenAt)) := by
    induction entries with
    | nil => exact .nil
    | cons entry rest ih => exact List.rel_append (event_properties zone writtenAt entry) ih
  apply List.rel_append (List.rel_append (header_properties zone fullName) events)
  exact .cons ⟨rfl,by simp [Unbroken],'E',_,rfl,by decide⟩ .nil

theorem property_all {names : List String} {lines : List Text} (properties : List.Forall₂ Property names lines) :
    ∀ line ∈ lines, Unbroken line ∧ ∃ c rest, line = c :: rest ∧ c ≠ ' ' := by
  induction properties with
  | nil => simp
  | cons property _ ih =>
    intro line member
    rcases List.mem_cons.mp member with rfl | member
    · exact ⟨property.unbroken,property.opens⟩
    · exact ih line member

theorem property_names {names : List String} {lines : List Text} (properties : List.Forall₂ Property names lines) :
    lines.map propertyName = names.map String.toList := by
  induction properties with
  | nil => rfl
  | cons property _ ih => rw [List.map_cons,List.map_cons,property.named,ih]

theorem property_values {names : List String} {lines : List Text} (properties : List.Forall₂ Property names lines) (name : String) :
    values name lines = ((names.zip lines).filter (fun pair => pair.1 = name)).map (fun pair => pair.2.drop (name.toList.length+1)) := by
  unfold values
  induction properties with
  | nil => rfl
  | @cons found line names lines property _ ih =>
    have same : propertyName line = name.toList ↔ found = name := by rw [property.named,String.toList_inj]
    rw [List.filterMap_cons,List.zip_cons_cons,List.filter_cons,ih]
    by_cases named : found = name
    · simp [valueOf,same,named]
    · simp [valueOf,same,named]

theorem piece_plain {line part : Text} (plain : '\r' ∉ line) (member : part ∈ pieces line) : '\r' ∉ part := by
  intro there
  apply plain
  rw [← (pieces_parts line).whole]
  exact List.mem_flatten_of_mem member there

-- The lines of the response as they are sent.
theorem split_response {lines : List Text} (full : lines ≠ []) (plain : ∀ line ∈ lines, '\r' ∉ line) :
    split crlf (crlf.intercalate (lines.map fold)) = (lines.map (fun line => opened ' ' (pieces line))).flatten := by
  have same : lines.map fold = (lines.map (fun line => opened ' ' (pieces line))).map crlf.intercalate := by
    rw [List.map_map]
    apply List.map_congr_left
    intro line _
    exact broken_opened crlf ' ' (pieces line)
  have opens : ∀ line, opened ' ' (pieces line) ≠ [] := by
    intro line
    obtain ⟨first,more,parts⟩ := List.exists_cons_of_ne_nil (pieces_parts line).full
    simp [parts,opened]
  rw [same,intercalate_flatten]
  · apply split_intercalate
    · obtain ⟨line,rest,rfl⟩ := List.exists_cons_of_ne_nil full
      simp [opens line]
    · intro part member
      obtain ⟨group,listed,inside⟩ := List.mem_flatten.mp member
      obtain ⟨line,there,rfl⟩ := List.mem_map.mp listed
      obtain ⟨first,more,parts⟩ := List.exists_cons_of_ne_nil (pieces_parts line).full
      rw [parts] at inside
      rcases List.mem_cons.mp inside with rfl | inside
      · exact piece_plain (plain line there) (parts ▸ List.mem_cons_self ..)
      · obtain ⟨piece,later,rfl⟩ := List.mem_map.mp inside
        have absent := piece_plain (plain line there) (parts ▸ List.mem_cons_of_mem _ later)
        simpa using absent
  · intro group listed
    obtain ⟨line,_,rfl⟩ := List.mem_map.mp listed
    exact opens line

theorem opened_short (line : Text) : ∀ part ∈ opened ' ' (pieces line), octets part ≤ 75 := by
  obtain ⟨first,more,parts⟩ := List.exists_cons_of_ne_nil (pieces_parts line).full
  obtain ⟨front,back⟩ := (pieces_parts line).fits first more parts
  rw [parts]
  intro part inside
  rcases List.mem_cons.mp inside with rfl | inside
  · exact front
  · obtain ⟨piece,later,rfl⟩ := List.mem_map.mp inside
    have weight := back piece later
    have space : Char.utf8Size ' ' = 1 := rfl
    rw [octets_cons,space]
    omega

theorem unfold_response {lines : List Text} (full : lines ≠ []) (plain : ∀ line ∈ lines, '\r' ∉ line)
    (opens : ∀ line ∈ lines, ∃ c rest, line = c :: rest ∧ c ≠ ' ') :
    split crlf (unfoldLines (crlf.intercalate (lines.map fold))) = lines := by
  have wholes : (lines.map pieces).map List.flatten = lines := by
    rw [List.map_map]
    conv_rhs => rw [← List.map_id lines]
    apply List.map_congr_left
    intro line _
    exact (pieces_parts line).whole
  have back : unfoldLines (crlf.intercalate (lines.map fold)) = crlf.intercalate lines := by
    have taken := @unbreak_lines Char _ ['\n'] '\r' ' ' (lines.map pieces) (by simp) ?_ ?_
    · rw [List.map_map,wholes] at taken
      exact taken
    · intro group listed part inside
      obtain ⟨line,there,rfl⟩ := List.mem_map.mp listed
      exact piece_plain (plain line there) inside
    · intro group listed
      obtain ⟨line,there,rfl⟩ := List.mem_map.mp listed
      obtain ⟨c,rest,same,other⟩ := opens line there
      obtain ⟨part,more,parts⟩ := (pieces_parts line).opens c rest same
      exact ⟨c,part,more,parts,other⟩
  rw [back]
  exact split_intercalate full plain

theorem event_value (zone : Zone) (writtenAt : Int) (entry : Entry) :
    values "UID" (eventLines zone writtenAt entry) = [escape (uid zone entry).toList] ∧
      values "SUMMARY" (eventLines zone writtenAt entry) = [escape (summary entry).toList] ∧
      values "LOCATION" (eventLines zone writtenAt entry) = [escape (location entry).toList] ∧
      values "DESCRIPTION" (eventLines zone writtenAt entry) = [escape (description entry).toList] ∧
      values "X-WR-CALNAME" (eventLines zone writtenAt entry) = [] := by
  simp only [property_values (event_properties zone writtenAt entry)]
  simp [eventNames,eventLines]

theorem header_value (zone : Zone) (fullName : String) :
    values "X-WR-CALNAME" (header zone fullName) = [escape (calendarName fullName).toList] ∧
      ∀ name ∈ ["UID","SUMMARY","LOCATION","DESCRIPTION"], values name (header zone fullName) = [] := by
  simp only [property_values (header_properties zone fullName)]
  simp [headerNames,header]

theorem content_values {name : String} (zone : Zone) (fullName : String) (writtenAt : Int) (entries : List Entry) (other : name ≠ "END") :
    values name (contentLines zone fullName writtenAt entries) =
      values name (header zone fullName) ++ entries.flatMap (fun entry => values name (eventLines zone writtenAt entry)) := by
  have last : values name ["END:VCALENDAR".toList] = [] := by
    have ends : List.Forall₂ Property ["END"] ["END:VCALENDAR".toList] :=
      .cons ⟨rfl,by simp [Unbroken],'E',_,rfl,by decide⟩ .nil
    rw [property_values ends]
    simp [Ne.symm other]
  unfold contentLines
  unfold values at last ⊢
  rw [List.filterMap_append,List.filterMap_append,last,List.append_nil,List.filterMap_flatMap]

-- What a reader of the feed gets back from it.
structure ReadsBack (zone : Zone) (fullName : String) (writtenAt : Int) (entries : List Entry) (text : Text) : Prop where
  short : ∀ line ∈ split crlf text, octets line ≤ 75
  lines : split crlf (unfoldLines text) = contentLines zone fullName writtenAt entries
  names : (split crlf (unfoldLines text)).map propertyName = (contentNames entries).map String.toList
  name : (values "X-WR-CALNAME" (split crlf (unfoldLines text))).map unescape = [lineEnds (calendarName fullName).toList]
  texts : ∀ property ∈ [("UID",uid zone),("SUMMARY",summary),("LOCATION",location),("DESCRIPTION",description)],
    (values property.1 (split crlf (unfoldLines text))).map unescape = entries.map (fun entry => lineEnds (property.2 entry).toList)

theorem escaped_values {name : String} {value : Entry → String} (zone : Zone) (fullName : String) (writtenAt : Int) (entries : List Entry)
    (other : name ≠ "END") (head : values name (header zone fullName) = [])
    (each : ∀ entry, values name (eventLines zone writtenAt entry) = [escape (value entry).toList]) :
    (values name (contentLines zone fullName writtenAt entries)).map unescape = entries.map (fun entry => lineEnds (value entry).toList) := by
  rw [content_values zone fullName writtenAt entries other,head,List.nil_append,funext each,List.map_flatMap]
  induction entries with
  | nil => rfl
  | cons entry rest ih =>
    rw [List.flatMap_cons,ih]
    simp [unescape_escape]

-- Whatever the texts are, the response unfolds to the lines that were meant, and
-- each text is read as it was with its line ends read as feeds.
theorem feed_reads_back (zone : Zone) :
    (∀ fullName writtenAt entries, ReadsBack zone fullName writtenAt entries (response zone fullName writtenAt entries)) ∧
      ∀ db feedTokens now feedToken, streamIcalendarFeed db feedTokens zone now feedToken = .error .feedNotFound ∨
        ∃ user ∈ db.users, streamIcalendarFeed db feedTokens zone now feedToken =
          .ok (response zone user.fullName now (entriesFor db (dateOf (zone.localOf now)) user)) := by
  constructor
  · intro fullName writtenAt entries
    have properties := content_properties zone fullName writtenAt entries
    have sound := property_all properties
    have plain : ∀ line ∈ contentLines zone fullName writtenAt entries, '\r' ∉ line := fun line member => (sound line member).1.1
    have full : contentLines zone fullName writtenAt entries ≠ [] := by simp [contentLines]
    have lines := unfold_response full plain (fun line member => (sound line member).2)
    refine ⟨?_,lines,?_,?_,?_⟩
    · intro part member
      unfold response at member
      rw [split_response full plain] at member
      obtain ⟨group,listed,inside⟩ := List.mem_flatten.mp member
      obtain ⟨line,_,rfl⟩ := List.mem_map.mp listed
      exact opened_short line part inside
    · unfold response
      rw [lines]
      exact property_names properties
    · unfold response
      rw [lines,content_values zone fullName writtenAt entries (by decide),(header_value zone fullName).1,
        funext (fun entry => (event_value zone writtenAt entry).2.2.2.2)]
      simp [unescape_escape]
    · have head := (header_value zone fullName).2
      unfold response
      rw [lines]
      simp only [List.forall_mem_cons,List.not_mem_nil,false_implies,implies_true,and_true] at head ⊢
      obtain ⟨uid_,summary_,location_,description_⟩ := head
      refine ⟨?_,?_,?_,?_⟩
      · exact escaped_values zone fullName writtenAt entries (by decide) uid_ (fun entry => (event_value zone writtenAt entry).1)
      · exact escaped_values zone fullName writtenAt entries (by decide) summary_ (fun entry => (event_value zone writtenAt entry).2.1)
      · exact escaped_values zone fullName writtenAt entries (by decide) location_ (fun entry => (event_value zone writtenAt entry).2.2.1)
      · exact escaped_values zone fullName writtenAt entries (by decide) description_
          (fun entry => (event_value zone writtenAt entry).2.2.2.1)
  · intro db feedTokens now feedToken
    unfold streamIcalendarFeed
    cases known : subscriber db feedTokens feedToken with
    | none => exact .inl rfl
    | some user => exact .inr ⟨user,List.mem_of_find?_eq_some known,rfl⟩

end ChronosLedger.CalendarSync
