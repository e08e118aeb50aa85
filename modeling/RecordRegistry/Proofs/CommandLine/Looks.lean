import RecordRegistry.CommandLine.Arguments

/-!
# Arguments by their looks

The looks of arguments in a row are found one by one up to the divider, and behind it everything is
text. An option that waits for a text gets it from its neighbour, so that looks in two parts keep
what they get unless the first part ends in such an option.
-/

namespace RecordRegistry.CommandLine

namespace Sign

variable {rules : List OptionRule} {before after signs : List Sign} {sign : Sign}

theorem exists_of_mem_candidates {text : Text} (h : sign ∈ candidates rules text) :
    ∃ rule spelling attached, sign = .option rule spelling attached := by
  unfold candidates at h
  split at h
  · simp only [List.mem_filterMap, Option.ite_none_right_eq_some, Option.some.injEq] at h
    obtain ⟨known, -, -, rfl⟩ := h
    exact ⟨_, _, _, rfl⟩
  · simp only [List.mem_filterMap, Option.ite_none_right_eq_some, Option.some.injEq] at h
    obtain ⟨known, -, -, rfl⟩ := h
    exact ⟨_, _, _, rfl⟩
  · cases h

/-- An argument in front of the divider is no divider, and a text only as it stands. -/
theorem ofText_cases {argument : Text} (h : ofText rules argument = .ok sign) :
    sign = .text argument ∨ sign = .unknown argument ∨
      ∃ rule spelling attached, sign = .option rule spelling attached := by
  unfold ofText at h
  split at h
  · cases hrule : rule? rules argument with
    | some rule =>
        simp only [hrule, Except.ok.injEq] at h
        exact .inr (.inr ⟨_, _, _, h.symm⟩)
    | none =>
        simp only [hrule] at h
        split at h
        · cases h
          exact .inr (.inr ⟨_, _, _, rfl⟩)
        · split at h
          · next candidate hcandidate =>
            cases h
            exact .inr (.inr (exists_of_mem_candidates (hcandidate ▸ List.mem_singleton_self _)))
          · split at h
            · cases h
              exact .inl rfl
            · cases h
              exact .inr (.inl rfl)
          · cases h
  · cases h
    exact .inl rfl

theorem ofTexts_cons_eq_ok_iff {argument : Text} (hargument : argument ≠ "--")
    {arguments : List Text} :
    ofTexts rules (argument :: arguments) = .ok signs ↔
      ∃ sign rest, ofText rules argument = .ok sign ∧ ofTexts rules arguments = .ok rest ∧
        signs = sign :: rest := by
  rw [ofTexts, if_neg hargument]
  cases ofText rules argument with
  | error fault => simp
  | ok sign =>
      cases ofTexts rules arguments with
      | error fault => simp [Except.map]
      | ok rest => simp [Except.map, eq_comm]

theorem ofTexts_append_eq_ok_iff {before after : List Text} (hbefore : ("--" : Text) ∉ before) :
    ofTexts rules (before ++ after) = .ok signs ↔
      ∃ front back, ofTexts rules before = .ok front ∧ ofTexts rules after = .ok back ∧
        signs = front ++ back := by
  induction before generalizing signs with
  | nil => simp [ofTexts]
  | cons argument before ih =>
      rw [List.mem_cons, not_or] at hbefore
      obtain ⟨hargument, hbefore⟩ := hbefore
      simp only [List.cons_append, ofTexts_cons_eq_ok_iff (Ne.symm hargument), ih hbefore]
      constructor
      · rintro ⟨sign, rest, hsign, ⟨front, back, hfront, hback, rfl⟩, rfl⟩
        exact ⟨sign :: front, back, ⟨sign, front, hsign, hfront, rfl⟩, hback, rfl⟩
      · rintro ⟨front, back, ⟨sign, front, hsign, hfront, rfl⟩, hback, rfl⟩
        exact ⟨sign, front ++ back, hsign, ⟨front, back, hfront, hback, rfl⟩, rfl⟩

/-- An argument that is inserted in front of the divider has its look at its place, and all others
keep theirs. -/
theorem ofTexts_insert {before after : List Text} {argument : Text} {signs' : List Sign}
    (hbefore : ("--" : Text) ∉ before) (hne : argument ≠ "--")
    (hsign : ofText rules argument = .ok sign)
    (h : ofTexts rules (before ++ after) = .ok signs)
    (h' : ofTexts rules (before ++ argument :: after) = .ok signs') :
    ∃ front back, ofTexts rules before = .ok front ∧ ofTexts rules after = .ok back ∧
      signs = front ++ back ∧ signs' = front ++ sign :: back := by
  obtain ⟨front, back, hfront, hback, rfl⟩ := (ofTexts_append_eq_ok_iff hbefore).mp h
  obtain ⟨front', back', hfront', hback', rfl⟩ := (ofTexts_append_eq_ok_iff hbefore).mp h'
  obtain ⟨sign', rest, hsign', hrest, rfl⟩ := (ofTexts_cons_eq_ok_iff hne).mp hback'
  rw [hfront] at hfront'
  rw [hsign] at hsign'
  rw [hback] at hrest
  cases hfront'
  cases hsign'
  cases hrest
  exact ⟨front, back, hfront, hback, rfl, rfl⟩

/-- Behind the divider everything is text. -/
theorem ofTexts_divider (rules : List OptionRule) (arguments : List Text) :
    ofTexts rules ("--" :: arguments) = .ok (.divider :: arguments.map .text) := by
  rw [ofTexts, if_pos rfl]

theorem ne_divider_of_ofTexts {arguments : List Text} (hdivider : ("--" : Text) ∉ arguments)
    (h : ofTexts rules arguments = .ok signs) :
    ∀ sign ∈ signs, sign ≠ .divider ∧ sign ≠ .text "--" := by
  induction arguments generalizing signs with
  | nil =>
      cases h
      exact fun sign hsign => absurd hsign List.not_mem_nil
  | cons argument arguments ih =>
      rw [List.mem_cons, not_or] at hdivider
      obtain ⟨hargument, hdivider⟩ := hdivider
      obtain ⟨sign, rest, hsign, hrest, rfl⟩ := (ofTexts_cons_eq_ok_iff (Ne.symm hargument)).mp h
      refine List.forall_mem_cons.mpr ⟨?_, ih hdivider hrest⟩
      rcases ofText_cases hsign with rfl | rfl | ⟨rule, spelling, attached, rfl⟩
      · exact ⟨by simp, by simpa using Ne.symm hargument⟩
      · simp
      · simp

theorem texts_of_ofTexts_divider {arguments : List Text}
    (h : ofTexts rules arguments = .ok (.divider :: signs)) :
    ∃ texts : List Text, signs = texts.map .text := by
  cases arguments with
  | nil => cases h
  | cons argument arguments =>
      by_cases hargument : argument = "--"
      · subst hargument
        rw [ofTexts_divider] at h
        cases h
        exact ⟨arguments, rfl⟩
      · obtain ⟨sign, rest, hsign, -, heq⟩ := (ofTexts_cons_eq_ok_iff hargument).mp h
        cases heq
        rcases ofText_cases hsign with heq | heq | ⟨rule, spelling, attached, heq⟩ <;> cases heq

section AttachNext

theorem attachNext_texts (texts : List Text) : attachNext (texts.map text) = texts.map text := by
  induction texts with
  | nil => rfl
  | cons first rest ih => simp [attachNext, ih]

theorem attachNext_divider (signs : List Sign) :
    attachNext (.divider :: signs) = .divider :: attachNext signs := by
  rw [attachNext]
  simp

theorem attachNext_flag {flag : OptionRule} (hflag : flag.kind = .flag) (spelling : Text)
    (signs : List Sign) :
    attachNext (.option flag spelling none :: signs) =
      .option flag spelling none :: attachNext signs := by
  have htext : flag.takesText = false := by rw [OptionRule.takesText, hflag]
  cases signs with
  | nil => rfl
  | cons sign signs => cases sign <;> simp [attachNext, htext]

/-- Signs behind others do not change what texts those get, unless an option waits for the text
that they begin with. -/
theorem attachNext_append (h : (∃ text rest, after = .text text :: rest) →
      ∀ rule spelling, .option rule spelling none ∈ attachNext before → rule.takesText = false) :
    attachNext (before ++ after) = attachNext before ++ attachNext after := by
  fun_induction attachNext before with
  | case1 rule spelling following rest htext ih =>
      simp only [List.cons_append, attachNext, htext, ↓reduceIte, List.cons.injEq, true_and]
      exact ih fun hafter rule' spelling' hmem => h hafter rule' spelling' (by simp [hmem])
  | case2 rule spelling following rest htext ih =>
      simp only [List.cons_append, attachNext, htext, Bool.false_eq_true, ↓reduceIte,
        List.cons.injEq, true_and]
      exact ih fun hafter rule' spelling' hmem => h hafter rule' spelling' (by simp [hmem])
  | case3 sign rest hsign ih =>
      by_cases hwaits : ∃ rule spelling text behind, sign = .option rule spelling none ∧
          rest ++ after = .text text :: behind
      · obtain ⟨rule, spelling, following, behind, rfl, hbehind⟩ := hwaits
        cases rest with
        | cons next rest =>
            cases hbehind
            exact (hsign _ _ _ _ rfl rfl).elim
        | nil =>
            rw [List.nil_append] at hbehind
            subst hbehind
            have htext : rule.takesText = false :=
              h ⟨following, behind, rfl⟩ rule spelling (by simp [attachNext])
            simp [attachNext, htext]
      · rw [List.cons_append, attachNext, List.cons_append, ih]
        · exact fun hafter rule' spelling' hmem => h hafter rule' spelling' (by simp [hmem])
        · exact fun rule spelling text behind heq hrest =>
            hwaits ⟨rule, spelling, text, behind, heq, hrest⟩
  | case4 => rfl

/-- Only options change when they are given the texts behind them. -/
theorem mem_of_mem_attachNext (h : sign ∈ attachNext signs) :
    sign ∈ signs ∨ ∃ rule spelling attached, sign = .option rule spelling attached := by
  fun_induction attachNext signs with
  | case1 rule spelling following rest htext ih =>
      rcases List.mem_cons.mp h with rfl | h
      · exact .inr ⟨_, _, _, rfl⟩
      · exact (ih h).imp_left fun h => by simp [h]
  | case2 rule spelling following rest htext ih =>
      simp only [List.mem_cons] at h ⊢
      rcases h with rfl | rfl | h
      · simp
      · simp
      · exact (ih h).imp_left fun h => .inr (.inr h)
  | case3 first rest hfirst ih =>
      rcases List.mem_cons.mp h with rfl | h
      · exact .inl List.mem_cons_self
      · exact (ih h).imp_left (List.mem_cons_of_mem _)
  | case4 => exact .inl h

theorem exists_of_attachNext_divider (h : attachNext after = .divider :: signs) :
    ∃ rest, after = .divider :: rest ∧ signs = attachNext rest := by
  unfold attachNext at h
  split at h
  · split at h <;> cases h
  · cases h
    exact ⟨_, rfl, rfl⟩
  · cases h

/-- What stands behind the divider gives no text to what stands before it. -/
theorem attachNext_of_ofTexts_divider {front behind : List Text} (hfront : ("--" : Text) ∉ front)
    (h : ofTexts rules (front ++ ("--" : Text) :: behind) = .ok signs) :
    ∃ ahead, ofTexts rules front = .ok ahead ∧
      attachNext signs = attachNext ahead ++ .divider :: behind.map .text := by
  obtain ⟨ahead, back, hahead, hback, rfl⟩ := (ofTexts_append_eq_ok_iff hfront).mp h
  rw [ofTexts_divider] at hback
  cases hback
  refine ⟨ahead, hahead, ?_⟩
  rw [attachNext_append (by simp), attachNext_divider, attachNext_texts]

end AttachNext

end Sign

end RecordRegistry.CommandLine
