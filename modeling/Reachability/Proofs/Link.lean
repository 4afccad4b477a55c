import Mathlib.Data.List.TakeWhile
import Reachability.Link
import Reachability.Proofs.Text.Utf8

set_option autoImplicit false

/-! # The URL of a link

A bare link has none of the characters `/`, `?`, `#` and `:`. So the URL that is read from it has no
password, no port, no query and no fragment, and its host is not empty (`candidate_parts`). Two
other signs are not looked for: what stands before an at sign becomes the user name, and what stands
after a backslash becomes the path. A link without both gives the URL of a host and nothing else. -/

namespace Reachability

namespace Url

/-- The part of a special URL with its host, up to a backslash, if there are no marks. -/
def hostSide (cs : List Char) : List Char := cs.takeWhile (· ≠ '\\')

/-- What comes after the part with the host. -/
def pathSide (cs : List Char) : List Char := cs.dropWhile (· ≠ '\\')

/-- What stands before the last at sign; nothing if there is none. -/
def userSide (cs : List Char) : List Char := ((cutLastAt? cs).map Prod.fst).getD []

/-- What stands after the last at sign, or everything if there is none. -/
def nameSide (cs : List Char) : List Char := ((cutLastAt? cs).map Prod.snd).getD cs

/-- The path of a special URL that goes on like this after its host. -/
def pathAfterHost (cs : List Char) : Path :=
  .segments (readPath true false (dropSlash true cs)).segments

/-! ## Characters that are not there -/

theorem takeWhile_dropWhile_congr {p q : Char → Bool} {cs : List Char} (h : ∀ c ∈ cs, p c = q c) :
    cs.takeWhile p = cs.takeWhile q ∧ cs.dropWhile p = cs.dropWhile q := by
  induction cs with
  | nil => exact ⟨rfl, rfl⟩
  | cons c cs ih =>
      obtain ⟨ht, hd⟩ := ih fun d hd => h d (List.mem_cons_of_mem _ hd)
      have hc := h c (List.mem_cons_self ..)
      simp only [List.takeWhile_cons, List.dropWhile_cons, hc, ht, hd, and_self]

section Marks

variable {cs : List Char} (h : ∀ c ∈ cs, Link.marksMore c = false)

include h

theorem ne_colon_of_bare : ∀ c ∈ cs, c ≠ ':' := by
  intro c hc he
  have hmark := h c hc
  simp [Link.marksMore, he] at hmark

theorem endsPath_of_bare : ∀ c ∈ cs, endsPath c = false := by
  intro c hc
  have hmark := h c hc
  simp only [Link.marksMore, Bool.or_eq_false_iff] at hmark
  simp [endsPath, hmark]

/-- Only a backslash ends the part with the host. -/
theorem endsAuthority_of_bare : ∀ c ∈ cs, (!endsAuthority true c) = decide (c ≠ '\\') := by
  intro c hc
  have hmark := h c hc
  simp only [Link.marksMore, Bool.or_eq_false_iff] at hmark
  by_cases hb : c = '\\' <;> simp [endsAuthority, isSlash, hmark, hb]

theorem takeWhile_ne_colon : cs.takeWhile (· ≠ ':') = cs ∧ cs.dropWhile (· ≠ ':') = [] := by
  have hne := ne_colon_of_bare h
  exact ⟨List.takeWhile_eq_self_iff.2 (by simpa using hne),
    List.dropWhile_eq_nil_iff.2 (by simpa using hne)⟩

/-- Without a colon there is no port. -/
theorem cutHost_of_bare (inBrackets : Bool) : cutHost inBrackets cs = (cs, []) := by
  have hne := ne_colon_of_bare h
  clear h
  induction cs generalizing inBrackets with
  | nil => rfl
  | cons c cs ih =>
      have hc : ¬ (c = ':' ∧ (!inBrackets) = true) := fun he => hne c (List.mem_cons_self ..) he.1
      have ih := fun b => ih b fun d hd => hne d (List.mem_cons_of_mem _ hd)
      simp only [cutHost, if_neg hc, ih]

/-- What comes after the host is all path. -/
theorem withPath_of_bare (u : Url) :
    withPath true u cs = { u with path := pathAfterHost cs, query := none, fragment := none } := by
  have hends := endsPath_of_bare h
  have htake : cs.takeWhile (fun c => !endsPath c) = cs :=
    List.takeWhile_eq_self_iff.2 fun c hc => by simp [hends c hc]
  have hdrop : cs.dropWhile (fun c => !endsPath c) = [] :=
    List.dropWhile_eq_nil_iff.2 fun c hc => by simp [hends c hc]
  rw [withPath, htake, hdrop]
  simp [tail, pathAfterHost]

end Marks

/-! ## The host -/

theorem mem_of_cutLastAt? {cs before after : List Char} (h : cutLastAt? cs = some (before, after)) :
    (∀ c ∈ before, c ∈ cs) ∧ (∀ c ∈ after, c ∈ cs) := by
  unfold cutLastAt? at h
  split at h
  · cases h
    refine ⟨fun c hc => List.mem_of_mem_take hc, fun c hc => ?_⟩
    exact List.mem_reverse.1 ((List.takeWhile_sublist _).subset (List.mem_reverse.1 hc))
  · cases h

/-- A host that has been read is not empty. -/
theorem Host.parse?_ne_empty {cs : List Char} {host : Host} (h : Host.parse? cs = some host) :
    host ≠ .domain [] := by
  rintro rfl
  unfold Host.parse? at h
  split at h
  · unfold bracketed? at h
    split at h
    · obtain ⟨a, -, ha⟩ := Option.map_eq_some_iff.1 h
      cases ha
    · cases h
  · simp only [Option.bind_eq_bind, Option.bind_eq_some_iff] at h
    obtain ⟨decoded, -, name, -, h⟩ := h
    split at h
    · cases h
    · next hname =>
      split at h
      · obtain ⟨a, -, ha⟩ := Option.map_eq_some_iff.1 h
        cases ha
      · cases h
        exact hname rfl

/-- A name that stays as it is, and is no address, is a host. -/
theorem Host.parse?_of_ascii {name : List Char}
    (plain : percentDecode (Text.utf8 name) = Text.utf8 name)
    (ascii : Domain.toAscii? name = some name) (unbracketed : name.head? ≠ some '[')
    (hne : name.isEmpty = false) (worded : endsInNumber name = false) :
    Host.parse? name = some (.domain name) := by
  simp only [Host.parse?, plain, Text.ofBytes?_utf8, String.toList_ofList, ascii,
    Option.bind_eq_bind, Option.bind_some]
  rw [if_neg unbracketed, if_neg (by rw [hne]; exact Bool.false_ne_true),
    if_neg (by rw [worded]; exact Bool.false_ne_true)]

/-- The root of all domain names is a host. -/
theorem Host.parse?_root : Host.parse? ['.'] = some (.domain ['.']) :=
  parse?_of_ascii (by decide) (by decide) (by decide) rfl (by decide)

theorem Host.text_ne_nil {host : Host} (h : host ≠ .domain []) : host.text ≠ [] := by
  match host with
  | .domain [] => exact absurd rfl h
  | .domain (c :: cs) => exact List.cons_ne_nil c cs
  | .address (.v4 a) => simp [Host.text, Address.text4]
  | .address (.v6 a) => simp [Host.text]

/-- The URL that is read after the slashes if there are no marks. -/
theorem withAuthority?_of_bare {impliedPort : Nat} {scheme cs : List Char}
    (h : ∀ c ∈ cs, Link.marksMore c = false) :
    withAuthority? (some impliedPort) scheme cs =
      if nameSide (hostSide cs) = [] then none
      else (Host.parse? (nameSide (hostSide cs))).map fun host =>
        { scheme
          username := percentEncode escapedInUser (userSide (hostSide cs))
          password := []
          host := some host
          port := none
          path := pathAfterHost (pathSide cs)
          query := none
          fragment := none } := by
  obtain ⟨htake, hdrop⟩ := takeWhile_dropWhile_congr (endsAuthority_of_bare h)
  have hhost : ∀ c ∈ hostSide cs, Link.marksMore c = false := fun c hc =>
    h c ((List.takeWhile_sublist _).subset hc)
  have hpath : ∀ c ∈ pathSide cs, Link.marksMore c = false := fun c hc =>
    h c ((List.dropWhile_sublist _).subset hc)
  obtain ⟨hcut, huser, hname⟩ : (cutLastAt? (hostSide cs)).getD ([], hostSide cs)
        = (userSide (hostSide cs), nameSide (hostSide cs)) ∧
      (∀ c ∈ userSide (hostSide cs), Link.marksMore c = false) ∧
      (∀ c ∈ nameSide (hostSide cs), Link.marksMore c = false) := by
    rw [userSide, nameSide]
    cases hcut : cutLastAt? (hostSide cs) with
    | none => exact ⟨rfl, nofun, hhost⟩
    | some parts =>
        obtain ⟨before, after⟩ := parts
        obtain ⟨hbefore, hafter⟩ := mem_of_cutLastAt? hcut
        exact ⟨rfl, fun c hc => hhost c (hbefore c hc), fun c hc => hhost c (hafter c hc)⟩
  obtain ⟨huserTake, huserDrop⟩ := takeWhile_ne_colon huser
  -- An at sign by itself leaves no name.
  have hlone : hostSide cs = ['@'] → nameSide (hostSide cs) = [] := fun he => by rw [he]; decide
  rw [withAuthority?]
  simp only [Option.isSome_some, htake, hdrop]
  rw [show cs.takeWhile (fun c => decide (c ≠ '\\')) = hostSide cs from rfl,
    show cs.dropWhile (fun c => decide (c ≠ '\\')) = pathSide cs from rfl, hcut]
  simp only [cutHost_of_bare hname, huserTake, huserDrop]
  by_cases hempty : nameSide (hostSide cs) = []
  · simp [hempty]
  · have hat : ¬ (hostSide cs = ['@'] ∧ pathSide cs ≠ []) := fun he => hempty (hlone he.1)
    rw [if_neg hat, if_neg hempty]
    cases Host.parse? (nameSide (hostSide cs)) <;>
      simp [hempty, port?, withPath_of_bare hpath, percentEncode]

/-- Without a backslash the path is the empty one. -/
theorem pathAfterHost_nil : pathAfterHost [] = .segments [[]] := by decide

end Url

/-! ## Links -/

namespace Link

/-- The scheme of the URL of a link. -/
def secureScheme : List Char := ['h', 't', 't', 'p', 's']

/-- What of a bare link is read as host, user name and path: neither the blanks at its end nor line
    breaks count, nor do backslashes before the host. -/
def content (bare : List Char) : List Char :=
  (Url.unbroken (bare.reverse.dropWhile Url.isControlOrSpace).reverse).dropWhile (Url.isSlash true)

theorem mem_of_mem_content {bare : List Char} {c : Char} (h : c ∈ content bare) : c ∈ bare := by
  have hkept := (List.dropWhile_sublist _).subset h
  have htrimmed := (List.mem_filter.1 hkept).1
  exact List.mem_reverse.1 ((List.dropWhile_sublist _).subset (List.mem_reverse.1 htrimmed))

theorem mem_of_mem_trimChars {cs : List Char} {c : Char} (h : c ∈ Text.trimChars cs) : c ∈ cs := by
  have hfront := (List.dropWhile_sublist _).subset (List.mem_reverse.1 h)
  exact (List.dropWhile_sublist _).subset (List.mem_reverse.1 hfront)

theorem bare?_eq_some {cs bare : List Char} (h : bare? cs = some bare) :
    bare = Text.trimChars cs ∧ ∀ c ∈ bare, marksMore c = false := by
  simp only [bare?] at h
  split at h
  · cases h
  · next hmarks =>
    cases h
    simp only [Bool.or_eq_true, not_or, Bool.not_eq_true, List.any_eq_false] at hmarks
    exact ⟨rfl, hmarks.2⟩

theorem trimmed_address (bare : List Char) :
    Url.trimmed (address bare)
      = address (bare.reverse.dropWhile Url.isControlOrSpace).reverse := by
  have hfront : (address bare).dropWhile Url.isControlOrSpace = address bare := by
    rw [address, secureLead, List.cons_append, List.dropWhile_cons_of_neg (by decide)]
  have hlead : ∀ cs : List Char, (cs ++ secureLead.reverse).dropWhile Url.isControlOrSpace
      = cs.dropWhile Url.isControlOrSpace ++ secureLead.reverse := by
    intro cs
    induction cs with
    | nil => decide
    | cons c cs ih =>
        rw [List.cons_append, List.dropWhile_cons, List.dropWhile_cons, ih]
        split <;> rfl
  rw [Url.trimmed, hfront, address, List.reverse_append, hlead, List.reverse_append,
    List.reverse_reverse, address]

/-- The URL of a bare link is read from what follows its slashes. -/
theorem parse?_address (bare : List Char) :
    Url.parse? (address bare) = Url.withAuthority? (some 443) secureScheme (content bare) := by
  have hscheme : ∀ cs : List Char, Url.takeScheme? (address cs)
      = some (secureScheme, '/' :: '/' :: cs) := fun cs => rfl
  have hslashes : (Url.unbroken ('/' :: '/' :: (bare.reverse.dropWhile
      Url.isControlOrSpace).reverse)).dropWhile (Url.isSlash true) = content bare := rfl
  rw [Url.parse?, trimmed_address, hscheme]
  exact congrArg (Url.withAuthority? (some 443) secureScheme) hslashes

/-- The URL that is asked for is read from the characters of the link. -/
theorem candidate?_eq_some {link : String} {u : Url} (h : candidate? link = some u) :
    (∀ c ∈ content (Text.trimChars link.toList), c ∈ link.toList) ∧
    ∃ host, host ≠ .domain [] ∧ u =
        { scheme := secureScheme
          username := Url.percentEncode Url.escapedInUser
            (Url.userSide (Url.hostSide (content (Text.trimChars link.toList))))
          password := []
          host := some host
          port := none
          path := Url.pathAfterHost (Url.pathSide (content (Text.trimChars link.toList)))
          query := none
          fragment := none } := by
  obtain ⟨bare, hbare, hparse⟩ := Option.bind_eq_some_iff.1 h
  obtain ⟨rfl, hmarks⟩ := bare?_eq_some hbare
  rw [parse?_address, Url.withAuthority?_of_bare fun c hc => hmarks c (mem_of_mem_content hc)]
    at hparse
  split at hparse
  · cases hparse
  obtain ⟨host, hhost, hu⟩ := Option.map_eq_some_iff.1 hparse
  exact ⟨fun c hc => mem_of_mem_trimChars (mem_of_mem_content hc), host,
    Url.Host.parse?_ne_empty hhost, hu.symm⟩

theorem candidate?_of_host {link : String} {bare name : List Char} {host : Url.Host}
    (hbare : bare? link.toList = some bare)
    (hname : Url.nameSide (Url.hostSide (content bare)) = name) (hne : name ≠ [])
    (hhost : Url.Host.parse? name = some host) :
    candidate? link = some
      { scheme := secureScheme
        username := Url.percentEncode Url.escapedInUser (Url.userSide (Url.hostSide (content bare)))
        password := []
        host := some host
        port := none
        path := Url.pathAfterHost (Url.pathSide (content bare))
        query := none
        fragment := none } := by
  have hmarks := (bare?_eq_some hbare).2
  rw [candidate?, hbare, Option.bind_some, parse?_address,
    Url.withAuthority?_of_bare fun c hc => hmarks c (mem_of_mem_content hc), hname, if_neg hne,
    hhost]
  rfl

/-- The URL that is asked for names a host. -/
theorem namedHost?_candidate {link : String} {u : Url} (h : candidate? link = some u) :
    ∃ host, u.namedHost? = some host ∧ host ≠ .domain [] := by
  obtain ⟨-, host, hne, rfl⟩ := candidate?_eq_some h
  refine ⟨host, ?_, hne⟩
  unfold Url.namedHost?
  split
  · next he => exact absurd (Option.some.inj he) hne
  · rfl

/-- The URL that is asked for when a link is checked has a host, and neither password nor port,
    query or fragment. It has a user name only if the link has an at sign, and more than the empty
    path only if the link has a backslash. -/
theorem candidate_parts (link : String) (u : Url) (h : candidate? link = some u) :
    ∃ host, host ≠ .domain [] ∧ u =
        { scheme := secureScheme
          username := Url.percentEncode Url.escapedInUser
            (Url.userSide (Url.hostSide (content (Text.trimChars link.toList))))
          password := []
          host := some host
          port := none
          path := Url.pathAfterHost (Url.pathSide (content (Text.trimChars link.toList)))
          query := none
          fragment := none } ∧
      ('@' ∉ link.toList → u.username = []) ∧
      ('\\' ∉ link.toList → u.path = .segments [[]]) := by
  obtain ⟨hlink, host, hne, hu⟩ := candidate?_eq_some h
  refine ⟨host, hne, hu, ?_, ?_⟩
  · intro hat
    have hnone : '@' ∉ Url.hostSide (content (Text.trimChars link.toList)) := fun hc =>
      hat (hlink _ ((List.takeWhile_sublist _).subset hc))
    rw [hu, Url.userSide, Url.cutLastAt?, if_neg (by simpa using hnone)]
    rfl
  · intro hback
    have hnil : Url.pathSide (content (Text.trimChars link.toList)) = [] := by
      refine List.dropWhile_eq_nil_iff.2 fun c hc => ?_
      have hne : c ≠ '\\' := fun he => hback (he ▸ hlink c hc)
      simpa using hne
    rw [hu, hnil, Url.pathAfterHost_nil]

/-- The link has both signs: its URL is `https://user@./x`, that of a path on the host `.`, the root
    of all domain names, with a user name. -/
theorem candidate_parts_user_and_path : ∃ u, candidate? "user@.\\x" = some u ∧
    u.scheme = secureScheme ∧ u.username = ['u', 's', 'e', 'r'] ∧ u.host = some (.domain ['.']) ∧
      u.path = .segments [['x']] ∧ u.password = [] ∧ u.port = none ∧ u.query = none := by
  have hlink : candidate? "user@.\\x" = some (Url.mk secureScheme ['u', 's', 'e', 'r'] []
      (some (.domain ['.'])) none (.segments [['x']]) none none) := by
    have hbare : bare? "user@.\\x".toList = some "user@.\\x".toList := by decide
    have hname : Url.nameSide (Url.hostSide (content "user@.\\x".toList)) = ['.'] := by decide
    have hmarks := (bare?_eq_some hbare).2
    rw [candidate?, hbare, Option.bind_some, parse?_address,
      Url.withAuthority?_of_bare fun c hc => hmarks c (mem_of_mem_content hc), hname,
      if_neg (by decide), Url.Host.parse?_root]
    decide
  obtain ⟨host, -, hu, -, -⟩ := candidate_parts _ _ hlink
  exact ⟨_, hlink, rfl, rfl, rfl, rfl, congrArg Url.password hu, congrArg Url.port hu,
    congrArg Url.query hu⟩

end Link

end Reachability
