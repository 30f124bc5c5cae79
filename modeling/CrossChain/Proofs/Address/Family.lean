import CrossChain.Address.Text
import CrossChain.Proofs.Outcomes
import CrossChain.Proofs.Text.Plain
/-! What holds of all addresses made of bytes holds of those read from texts: texts go many ways,
but all of them end where bytes become an address of a given family, and only a module may be
named after that. In particular addresses are of the family they were asked for. -/
namespace CrossChain.Address

/-- A name that is still there, and still the same, where it is read at the end of a text. -/
def IsModuleName (name : String) : Prop :=
  name.toList ≠ [] ∧ Text.trimEnd name.toList = name.toList

section Texts

variable {P : Address → Prop} {family : Family}

theorem yieldsOnly_parseAccount (hbytes : ∀ bs, YieldsOnly P (ofBytes bs family))
    (cs account : List Char) : YieldsOnly P (parseAccount cs account family) := by
  unfold parseAccount
  exact .guard <| .guard <| .of_next hbytes

theorem yieldsOnly_parseMove (hbytes : ∀ bs, YieldsOnly P (ofBytes bs family))
    (hmodule : ∀ a name, P a → IsModuleName name → P (a.withModule name)) {cs : List Char}
    (hend : Text.trimEnd cs = cs) : YieldsOnly P (parseMove cs family) := by
  unfold parseMove
  split
  next => exact yieldsOnly_parseAccount hbytes cs cs
  next => exact .error _
  next account name hne hcut =>
    have hname : IsModuleName (String.ofList name) := by
      rw [Text.eq_append_of_cut? hcut, Text.trimEnd_append_eq_self_iff hne] at hend
      rw [IsModuleName, String.toList_ofList]
      exact ⟨hne, hend⟩
    exact .map fun a ha => hmodule a _ (yieldsOnly_parseAccount hbytes cs account a ha) hname

theorem yieldsOnly_parseFriendly (hbytes : ∀ bs, YieldsOnly P (ofBytes bs .ton))
    (cs : List Char) : YieldsOnly P (Ton.parseFriendly cs) := by
  unfold Ton.parseFriendly
  extract_lets bad finish
  have hfinish : ∀ bs, YieldsOnly P (finish bs) := by
    intro bs
    dsimp only [finish]
    split
    next => exact .guard <| .guard <| .guard <| hbytes _
    next => exact .error _
  split
  next => exact hfinish _
  next => exact .of_next hfinish

theorem yieldsOnly_parseRaw (hbytes : ∀ bs, YieldsOnly P (ofBytes bs .ton))
    (cs workchain hash : List Char) : YieldsOnly P (Ton.parseRaw cs workchain hash) := by
  unfold Ton.parseRaw
  extract_lets bad
  split
  next => exact .error _
  next => exact .of_next fun bs => .guard <| hbytes _

theorem yieldsOnly_parseTon (hbytes : ∀ bs, YieldsOnly P (ofBytes bs .ton)) (cs : List Char) :
    YieldsOnly P (parseTon cs) := by
  unfold parseTon
  split
  next => exact yieldsOnly_parseRaw hbytes _ _ _
  next =>
    split
    next => exact .of_next fun bs => (hbytes bs).mapError _
    next => exact yieldsOnly_parseFriendly hbytes cs

/-- Whatever holds of addresses made of bytes, and still holds under the name of a module, holds of
addresses read from texts. -/
theorem yieldsOnly_parse (hbytes : ∀ bs, YieldsOnly P (ofBytes bs family))
    (hmodule : family.isMove → ∀ a name, P a → IsModuleName name → P (a.withModule name))
    (s : String) : YieldsOnly P (parse s family) := by
  unfold parse
  extract_lets cs
  have hend : Text.trimEnd cs = cs := Text.trimEnd_trim s.toList
  cases family with
  | evm => exact .of_next fun bs => (hbytes bs).mapError _
  | svm =>
    dsimp only
    split
    next => exact .of_next fun bs => (hbytes bs).mapError _
    next => exact .of_next fun bs => (hbytes bs).mapError _
  | aptos => exact yieldsOnly_parseMove hbytes (hmodule rfl) hend
  | sui => exact yieldsOnly_parseMove hbytes (hmodule rfl) hend
  | ton => exact yieldsOnly_parseTon hbytes cs

end Texts

theorem yieldsOnly_ofBytes (bs : Bytes) (family : Family) :
    YieldsOnly (fun a => a.family = family ∧ a.moduleName = none) (ofBytes bs family) := by
  unfold ofBytes
  split
  next => exact .error _
  next =>
    extract_lets canonical
    split
    next => exact .ok ⟨rfl, rfl⟩
    next => exact .error _

abbrev OfFamily (family : Family) (x : Except Error Address) : Prop :=
  YieldsOnly (fun a => a.family = family) x

theorem ofFamily_ofBytes (bs : Bytes) (family : Family) : OfFamily family (ofBytes bs family) :=
  fun a h => (yieldsOnly_ofBytes bs family a h).1

theorem ofFamily_parse (s : String) (family : Family) : OfFamily family (parse s family) :=
  yieldsOnly_parse (fun bs => ofFamily_ofBytes bs family) (fun _ _ _ h _ => h) s

theorem ofFamily_resolve (raw : Json.LooseBytes) (family : Family) :
    OfFamily family (resolve raw family) := by
  unfold resolve
  split
  next bs => exact ofFamily_ofBytes bs family
  next s =>
    split
    next a ha => exact .ok (ofFamily_parse s family a ha)
    next e _ =>
      split
      next bs _ =>
        split
        next => exact .error e
        next => exact ofFamily_ofBytes bs family
      next => exact .error e

end CrossChain.Address
