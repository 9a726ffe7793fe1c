import EndstoneExchange.AsciiNumerals
import EndstoneExchange.LocalizedMessages

/-!
# The values a client returns from a form

A form's response is scanned byte by byte as a bracketed list of quoted strings. The
scanner below works on the bytes it has not read yet.
-/
namespace EndstoneExchange.FormValues
open AsciiNumerals LocalizedMessages

section Scanner
variable (language : Language)

def skipWhitespace (rest : Bytes) : Bytes := rest.dropWhile isSpace

def invalid {α : Type} : Except Thrown α := .error (.userError (tr language .invalidFormData []))

/-- The byte a two-character escape stands for. -/
def decodeEscaped (c : UInt8) : Option UInt8 :=
  if c = quote then some quote
  else if c = backslash then some backslash
  else if c = ascii '/' then some (ascii '/')
  else if c = ascii 'b' then some 8
  else if c = ascii 'f' then some 12
  else if c = ascii 'n' then some 10
  else if c = ascii 'r' then some 13
  else if c = ascii 't' then some 9
  else none

/-- The inner loop, behind an opening quote: the string so far, and the bytes to read. -/
def stringLoop (value : Bytes) : Bytes → Except Thrown (Bytes × Bytes)
  | [] => invalid language
  | c :: rest =>
    if c = quote then .ok (value, rest)
    else if c < 0x20 then invalid language
    else if c ≠ backslash then stringLoop (value ++ [c]) rest
    else match rest with
    | [] => invalid language
    | escaped :: rest => match decodeEscaped escaped with
      | some decoded => stringLoop (value ++ [decoded]) rest
      | none => invalid language

private theorem stringLoop_length {value rest v rest' : Bytes} (h : stringLoop language value rest = .ok (v, rest')) :
    rest'.length < rest.length := by
  fun_induction stringLoop language value rest with
  | case1 => cases h
  | case2 => cases h; simp
  | case3 => cases h
  | case4 value c rest _ _ _ ih => exact (ih h).trans (by simp)
  | case5 => cases h
  | case6 value c _ _ _ escaped rest decoded _ ih => exact (ih h).trans (by simp only [List.length_cons]; omega)
  | case7 => cases h

set_option linter.unusedVariables false in
/-- The outer loop: the strings so far, whether the list was closed, and what is left to read. -/
def arrayLoop (values : List Bytes) (rest : Bytes) : Except Thrown (List Bytes × Bool × Bytes) :=
  match rest with
  | [] => .ok (values, false, [])
  | c :: rest =>
    if c ≠ quote then invalid language
    else match h : stringLoop language [] rest with
    | .error e => .error e
    | .ok (value, rest') => match hskip : skipWhitespace rest' with
      | [] => invalid language
      | d :: rest'' =>
        if d = ascii ']' then .ok (values ++ [value], true, rest'')
        else if d ≠ ascii ',' then invalid language
        else arrayLoop (values ++ [value]) (skipWhitespace rest'')
termination_by rest.length
decreasing_by
  have hstring := stringLoop_length language h
  have hrest := congrArg List.length hskip
  have hle : (skipWhitespace rest').length ≤ rest'.length := (List.dropWhile_sublist _).length_le
  have hle' : (skipWhitespace rest'').length ≤ rest''.length := (List.dropWhile_sublist _).length_le
  simp only [List.length_cons] at hrest ⊢
  omega

def textFormValues (response : Bytes) : Except Thrown (List Bytes) :=
  match skipWhitespace response with
  | [] => invalid language
  | c :: rest =>
    if c ≠ ascii '[' then invalid language
    else match skipWhitespace rest with
    | d :: rest' =>
      if d = ascii ']' then
        if skipWhitespace rest' ≠ [] then invalid language else .ok []
      else finish (arrayLoop language [] (d :: rest'))
    | [] => finish (arrayLoop language [] [])
where
  finish (scanned : Except Thrown (List Bytes × Bool × Bytes)) : Except Thrown (List Bytes) := do
    let (values, arrayClosed, rest) ← scanned
    if !arrayClosed ∨ skipWhitespace rest ≠ [] then invalid language else .ok values

end Scanner

section Grammar

/-- The bytes between two quotes, and the string they stand for. -/
inductive IsContent : Bytes → Bytes → Prop where
  | nil : IsContent [] []
  | plain {c : UInt8} {text value : Bytes} (hctl : ¬ c < 0x20) (hquote : c ≠ quote) (hback : c ≠ backslash)
      (htext : IsContent text value) : IsContent (c :: text) (c :: value)
  | escape {c decoded : UInt8} {text value : Bytes} (hc : decodeEscaped c = some decoded)
      (htext : IsContent text value) : IsContent (backslash :: c :: text) (decoded :: value)

/-- Quoted strings with a comma between any two, and blanks behind the strings and commas. -/
inductive IsStrings : Bytes → List Bytes → Prop where
  | one {text value after : Bytes} (htext : IsContent text value) (hafter : Blank after) :
      IsStrings (quote :: text ++ quote :: after) [value]
  | more {text value after before rest : Bytes} {values : List Bytes} (htext : IsContent text value)
      (hafter : Blank after) (hbefore : Blank before) (hrest : IsStrings rest values) :
      IsStrings (quote :: text ++ quote :: after ++ ascii ',' :: before ++ rest) (value :: values)

inductive IsForm : Bytes → List Bytes → Prop where
  | empty {before inside after : Bytes} (hbefore : Blank before) (hinside : Blank inside)
      (hafter : Blank after) : IsForm (before ++ ascii '[' :: inside ++ ascii ']' :: after) []
  | list {before inside text after : Bytes} {values : List Bytes} (hbefore : Blank before)
      (hinside : Blank inside) (htext : IsStrings text values) (hafter : Blank after) :
      IsForm (before ++ ascii '[' :: inside ++ text ++ ascii ']' :: after) values

end Grammar

section Whitespace
variable {before rest : Bytes} {c : UInt8}

theorem exists_blank (rest : Bytes) : ∃ before, Blank before ∧ rest = before ++ skipWhitespace rest :=
  ⟨rest.takeWhile isSpace, fun _ hb => List.mem_takeWhile_imp hb,
    (List.takeWhile_append_dropWhile).symm⟩

theorem skipWhitespace_eq_nil : skipWhitespace rest = [] ↔ Blank rest := List.dropWhile_eq_nil_iff

@[simp] theorem skipWhitespace_blank (h : Blank before) (hc : isSpace c = false) :
    skipWhitespace (before ++ c :: rest) = c :: rest := by
  rw [skipWhitespace, List.dropWhile_append_of_pos h, List.dropWhile_cons_of_neg (by simp [hc])]

/-- A list of strings starts with a quote, not with a blank. -/
theorem IsStrings.head {text : Bytes} {values : List Bytes} (h : IsStrings text values) :
    ∃ tail, text = quote :: tail := by
  cases h with
  | one => exact ⟨_, rfl⟩
  | more => exact ⟨_, rfl⟩

end Whitespace

section Strings
variable {language : Language} {value rest rest' text decoded v : Bytes}

theorem stringLoop_sound (h : stringLoop language value rest = .ok (v, rest')) :
    ∃ text decoded, rest = text ++ quote :: rest' ∧ IsContent text decoded ∧ v = value ++ decoded := by
  fun_induction stringLoop language value rest with
  | case1 => cases h
  | case2 value => cases h; exact ⟨[], [], rfl, .nil, (List.append_nil _).symm⟩
  | case3 => cases h
  | case4 value c rest hquote hctl hback ih =>
    obtain ⟨text, decoded, rfl, htext, rfl⟩ := ih h
    exact ⟨c :: text, c :: decoded, rfl, .plain hctl hquote hback htext, List.append_assoc _ _ _⟩
  | case5 => cases h
  | case6 value c _ _ hback escaped rest d hd ih =>
    obtain ⟨text, decoded, rfl, htext, rfl⟩ := ih h
    rw [not_not.mp hback]
    exact ⟨backslash :: escaped :: text, d :: decoded, rfl, .escape hd htext, List.append_assoc _ _ _⟩
  | case7 => cases h

theorem stringLoop_complete (language : Language) (h : IsContent text decoded) (value rest' : Bytes) :
    stringLoop language value (text ++ quote :: rest') = .ok (value ++ decoded, rest') := by
  induction h generalizing value with
  | nil => simp [stringLoop.eq_def]
  | plain hctl hquote hback _ ih =>
    rw [List.cons_append, stringLoop.eq_def]
    dsimp only
    rw [if_neg hquote, if_neg hctl, if_pos hback, ih]
    simp
  | @escape c d text value' hc _ ih =>
    have hback : backslash ≠ quote := by decide
    have hctl : ¬ backslash < 0x20 := by decide
    rw [List.cons_append, List.cons_append, stringLoop.eq_def]
    dsimp only
    rw [if_neg hback, if_neg hctl, if_neg (by simp)]
    simp [hc, ih]

private theorem stringLoop_error {e : Thrown} (h : stringLoop language value rest = .error e) :
    e = .userError (tr language .invalidFormData []) := by
  fun_induction stringLoop language value rest with
  | case1 => cases h; rfl
  | case2 => cases h
  | case3 => cases h; rfl
  | case4 _ _ _ _ _ _ ih => exact ih h
  | case5 => cases h; rfl
  | case6 _ _ _ _ _ _ _ _ _ ih => exact ih h
  | case7 => cases h; rfl

end Strings

section Arrays
variable {language : Language} {values vs : List Bytes} {rest rest' text value rest₁ rest₂ : Bytes} {d : UInt8}

theorem arrayLoop_quote (values : List Bytes) (hstring : stringLoop language [] rest = .ok (value, rest₁))
    (hskip : skipWhitespace rest₁ = d :: rest₂) : arrayLoop language values (quote :: rest) =
      if d = ascii ']' then .ok (values ++ [value], true, rest₂)
      else if d ≠ ascii ',' then invalid language
      else arrayLoop language (values ++ [value]) (skipWhitespace rest₂) := by
  rw [arrayLoop, if_neg (not_not.mpr rfl)]
  split
  case h_1 e herror => cases herror.symm.trans hstring
  case h_2 value' rest' hok =>
    cases hok.symm.trans hstring
    split
    case h_1 hnil => cases hnil.symm.trans hskip
    case h_2 d' rest'' hcons => cases hcons.symm.trans hskip; rfl

private theorem arrayLoop_sound (h : arrayLoop language values rest = .ok (vs, true, rest')) :
    ∃ text strings, rest = text ++ ascii ']' :: rest' ∧ IsStrings text strings ∧ vs = values ++ strings := by
  fun_induction arrayLoop language values rest with
  | case1 => cases h
  | case2 => cases h
  | case3 => cases h
  | case4 => cases h
  | case5 values c rest hc value rest₁ hstring rest₂ hskip =>
    cases h
    obtain ⟨text, decoded, rfl, htext, rfl⟩ := stringLoop_sound hstring
    obtain ⟨after, hafter, hrest⟩ := exists_blank rest₁
    refine ⟨quote :: text ++ quote :: after, [value], ?_, .one htext hafter, rfl⟩
    rw [not_not.mp hc, hrest, hskip]
    simp
  | case6 => cases h
  | case7 values c rest hc value rest₁ hstring d rest₂ hskip hd hcomma ih =>
    obtain ⟨text, decoded, rfl, htext, rfl⟩ := stringLoop_sound hstring
    obtain ⟨after, hafter, hrest₁⟩ := exists_blank rest₁
    obtain ⟨before, hbefore, hrest₂⟩ := exists_blank rest₂
    obtain ⟨tail, strings, htail, hstrings, rfl⟩ := ih h
    refine ⟨quote :: text ++ quote :: after ++ ascii ',' :: before ++ tail, value :: strings, ?_,
      .more htext hafter hbefore hstrings, by simp⟩
    rw [not_not.mp hc, hrest₁, hskip, not_not.mp hcomma, hrest₂, htail]
    simp

private theorem arrayLoop_complete (language : Language) (h : IsStrings text vs) (values : List Bytes) (rest : Bytes) :
    arrayLoop language values (text ++ ascii ']' :: rest) = .ok (values ++ vs, true, rest) := by
  induction h generalizing values with
  | @one text value after htext hafter =>
    have hskip : skipWhitespace (after ++ ascii ']' :: rest) = ascii ']' :: rest :=
      skipWhitespace_blank hafter rfl
    have hloop := arrayLoop_quote values (stringLoop_complete language htext [] _) hskip
    simpa using hloop
  | @more text value after before tail vs htext hafter hbefore hrest ih =>
    have hskip : skipWhitespace (after ++ ascii ',' :: (before ++ (tail ++ ascii ']' :: rest))) =
        ascii ',' :: (before ++ (tail ++ ascii ']' :: rest)) := skipWhitespace_blank hafter rfl
    have hskip' : skipWhitespace (before ++ (tail ++ ascii ']' :: rest)) = tail ++ ascii ']' :: rest := by
      obtain ⟨tail', rfl⟩ := hrest.head
      exact skipWhitespace_blank hbefore rfl
    have hloop := arrayLoop_quote values (stringLoop_complete language htext [] _) hskip
    rw [hskip', List.nil_append, ih] at hloop
    have hcomma : ascii ',' ≠ ascii ']' := by decide
    simpa [hcomma] using hloop

private theorem arrayLoop_error {e : Thrown} (h : arrayLoop language values rest = .error e) :
    e = .userError (tr language .invalidFormData []) := by
  fun_induction arrayLoop language values rest with
  | case1 => cases h
  | case2 => cases h; rfl
  | case3 values c rest hc e' hstring => cases h; exact stringLoop_error hstring
  | case4 => cases h; rfl
  | case5 => cases h
  | case6 => cases h; rfl
  | case7 values c rest hc value rest₁ hstring d rest₂ hskip hd hcomma ih => exact ih h

end Arrays

section Forms
variable {language : Language} {response : Bytes} {values : List Bytes}

theorem finish_eq_ok {scanned : Except Thrown (List Bytes × Bool × Bytes)} :
    textFormValues.finish language scanned = .ok values ↔
      ∃ rest, scanned = .ok (values, true, rest) ∧ Blank rest := by
  constructor
  · intro h
    match scanned, h with
    | .ok (vs, arrayClosed, rest), h =>
      simp only [textFormValues.finish, bind, Except.bind] at h
      split_ifs at h with hopen
      · cases h
      · cases h
        simp only [not_or, not_not, Bool.not_eq_true', Bool.not_eq_false] at hopen
        exact ⟨rest, by rw [hopen.1], skipWhitespace_eq_nil.mp hopen.2⟩
  · rintro ⟨rest, rfl, hblank⟩
    simp only [textFormValues.finish, bind, Except.bind]
    rw [if_neg (by simp [skipWhitespace_eq_nil.mpr hblank])]

theorem textFormValues_sound (h : textFormValues language response = .ok values) : IsForm response values := by
  obtain ⟨before, hbefore, hresponse⟩ := exists_blank response
  unfold textFormValues at h
  split at h
  case h_1 => cases h
  case h_2 c rest hskip =>
    split_ifs at h with hc
    · cases h
    obtain ⟨inside, hinside, hrest⟩ := exists_blank rest
    rw [hresponse, hskip, not_not.mp hc, hrest]
    split at h
    case h_1 d rest' hskip' =>
      split_ifs at h with hd hend
      · cases h
      · cases h
        rw [hskip', hd]
        have := IsForm.empty hbefore hinside (skipWhitespace_eq_nil.mp (not_not.mp hend))
        simpa using this
      · obtain ⟨after, hloop, hafter⟩ := finish_eq_ok.mp h
        obtain ⟨text, strings, htext, hstrings, rfl⟩ := arrayLoop_sound hloop
        have := IsForm.list hbefore hinside hstrings hafter
        rw [hskip', htext]
        simpa using this
    case h_2 =>
      obtain ⟨after, hloop, -⟩ := finish_eq_ok.mp h
      rw [arrayLoop] at hloop
      cases hloop

theorem textFormValues_complete (h : IsForm response values) (language : Language) :
    textFormValues language response = .ok values := by
  cases h with
  | @empty before inside after hbefore hinside hafter =>
    have hskip : skipWhitespace (before ++ ascii '[' :: (inside ++ ascii ']' :: after)) =
        ascii '[' :: (inside ++ ascii ']' :: after) := skipWhitespace_blank hbefore rfl
    have hskip' : skipWhitespace (inside ++ ascii ']' :: after) = ascii ']' :: after :=
      skipWhitespace_blank hinside rfl
    rw [List.append_assoc, List.cons_append, textFormValues, hskip]
    simp [hskip', skipWhitespace_eq_nil.mpr hafter]
  | @list before inside text after _ hbefore hinside htext hafter =>
    have hskip : skipWhitespace (before ++ ascii '[' :: (inside ++ (text ++ ascii ']' :: after))) =
        ascii '[' :: (inside ++ (text ++ ascii ']' :: after)) := skipWhitespace_blank hbefore rfl
    have hscan : textFormValues.finish language (arrayLoop language [] (text ++ ascii ']' :: after)) =
        .ok values := finish_eq_ok.mpr ⟨after, arrayLoop_complete language htext [] after, hafter⟩
    obtain ⟨tail, rfl⟩ := htext.head
    have hskip' : skipWhitespace (inside ++ (quote :: tail ++ ascii ']' :: after)) =
        quote :: (tail ++ ascii ']' :: after) := skipWhitespace_blank hinside rfl
    have hquote : quote ≠ ascii ']' := by decide
    have hflat : before ++ ascii '[' :: inside ++ quote :: tail ++ ascii ']' :: after =
        before ++ ascii '[' :: (inside ++ (quote :: tail ++ ascii ']' :: after)) := by simp
    rw [hflat, textFormValues, hskip]
    dsimp only
    rw [if_neg (by simp), hskip']
    dsimp only
    rw [if_neg hquote]
    exact hscan

theorem textFormValues_error {e : Thrown} (h : textFormValues language response = .error e) :
    e = .userError (tr language .invalidFormData []) := by
  have hfinish : ∀ rest, textFormValues.finish language (arrayLoop language [] rest) = .error e →
      e = .userError (tr language .invalidFormData []) := by
    intro rest hscan
    cases hloop : arrayLoop language [] rest with
    | error e' =>
      rw [hloop] at hscan
      cases hscan
      exact arrayLoop_error hloop
    | ok scanned =>
      rw [hloop] at hscan
      simp only [textFormValues.finish, bind, Except.bind] at hscan
      split_ifs at hscan
      · cases hscan; rfl
  unfold textFormValues at h
  split at h
  case h_1 => cases h; rfl
  case h_2 c rest _ =>
    split_ifs at h with hc
    · cases h; rfl
    split at h
    case h_1 d rest' _ =>
      split_ifs at h with hd hend
      · cases h; rfl
      · exact hfinish _ h
    case h_2 => exact hfinish _ h

end Forms

section Encoding

/-- The letter of a control character that has an escape. -/
def escapeLetter (c : UInt8) : Option UInt8 :=
  if c = 8 then some (ascii 'b')
  else if c = 12 then some (ascii 'f')
  else if c = 10 then some (ascii 'n')
  else if c = 13 then some (ascii 'r')
  else if c = 9 then some (ascii 't')
  else none

def encodeByte (c : UInt8) : Bytes :=
  if c = quote ∨ c = backslash then [backslash, c]
  else match escapeLetter c with
  | some letter => [backslash, letter]
  | none => [c]

def encodeString (value : Bytes) : Bytes := quote :: value.flatMap encodeByte ++ [quote]

def encodeForm (values : List Bytes) : Bytes :=
  ascii '[' :: (List.intercalate [ascii ','] (values.map encodeString) ++ [ascii ']'])

/-- The bytes a string of a form can hold. -/
def Encodable (value : Bytes) : Prop := ∀ c ∈ value, ¬ c < 0x20 ∨ (escapeLetter c).isSome

private theorem decodeEscaped_escapeLetter {c letter : UInt8} (h : escapeLetter c = some letter) :
    decodeEscaped letter = some c := by
  unfold escapeLetter at h
  split_ifs at h with hb hf hn hr ht
  · cases h; rw [hb]; rfl
  · cases h; rw [hf]; rfl
  · cases h; rw [hn]; rfl
  · cases h; rw [hr]; rfl
  · cases h; rw [ht]; rfl

theorem isContent_encode {value : Bytes} (h : Encodable value) :
    IsContent (value.flatMap encodeByte) value := by
  induction value with
  | nil => exact .nil
  | cons c value ih =>
    have hrest := ih fun b hb => h b (List.mem_cons_of_mem c hb)
    rw [List.flatMap_cons, encodeByte]
    by_cases hspecial : c = quote ∨ c = backslash
    · rw [if_pos hspecial]
      refine .escape ?_ hrest
      rcases hspecial with rfl | rfl
      · rfl
      · rfl
    · rw [if_neg hspecial]
      push Not at hspecial
      cases hletter : escapeLetter c with
      | some letter => exact .escape (decodeEscaped_escapeLetter hletter) hrest
      | none =>
        have hctl : ¬ c < 0x20 := (h c List.mem_cons_self).resolve_right (by simp [hletter])
        exact .plain hctl hspecial.1 hspecial.2 hrest

private theorem isStrings_encode {value : Bytes} {values : List Bytes} (h : ∀ v ∈ value :: values, Encodable v) :
    IsStrings (List.intercalate [ascii ','] ((value :: values).map encodeString)) (value :: values) := by
  induction values generalizing value with
  | nil => simpa [encodeString] using IsStrings.one (isContent_encode (h value List.mem_cons_self)) blank_nil
  | cons next values ih =>
    have hcontent := isContent_encode (h value List.mem_cons_self)
    have hrest := ih fun v hv => h v (List.mem_cons_of_mem value hv)
    have hmore := IsStrings.more hcontent blank_nil blank_nil hrest
    simpa [encodeString, List.intercalate] using hmore

private theorem isForm_encode {values : List Bytes} (h : ∀ v ∈ values, Encodable v) :
    IsForm (encodeForm values) values := by
  cases values with
  | nil => exact IsForm.empty blank_nil blank_nil blank_nil
  | cons value values => exact IsForm.list blank_nil blank_nil (isStrings_encode h) blank_nil

end Encoding

/-- The scanner accepts the forms and nothing else, every other response is an error for the
player, and encoded strings come back. -/
theorem textFormValues_exact (language : Language) :
    (∀ response values, textFormValues language response = .ok values ↔ IsForm response values) ∧
      (∀ response, (∀ values, ¬ IsForm response values) →
        textFormValues language response = .error (.userError (tr language .invalidFormData []))) ∧
      ∀ values, (∀ v ∈ values, Encodable v) → textFormValues language (encodeForm values) = .ok values := by
  refine ⟨fun response values => ⟨textFormValues_sound, fun h => textFormValues_complete h language⟩,
    fun response hno => ?_, fun values h => textFormValues_complete (isForm_encode h) language⟩
  cases hresult : textFormValues language response with
  | ok values => exact absurd (textFormValues_sound hresult) (hno values)
  | error e => rw [textFormValues_error hresult]

end EndstoneExchange.FormValues
