import Mathlib.Data.List.Count
import Fabric.Link
import Fabric.Proofs.Numerals

/-! What the texts of endpoints and links tell. A numeral has neither a colon nor a dash in it, so the text of
an endpoint tells the endpoint (`Endpoint.text_inj`), and the text of a link tells its ends as long as no
switch has a colon in its name (`Link.text_inj`). A colon in the name of
one switch is enough for two links with one text. -/

namespace Fabric

open Fabric.Text

/-- An endpoint is read off its text from the end, where the number is, whatever the switch is called. -/
theorem Endpoint.text_inj {e e' : Endpoint} (h : e.text = e'.text) : e = e' := by
  have hchars (e : Endpoint) : e.text.toList.reverse =
      (numeralIn 10 e.port.toNat).reverse ++ ':' :: e.switch.toList.reverse := by
    simp [text, numeral]
  have hcolon (n : Nat) : ':' ∉ (numeralIn 10 n).reverse :=
    mt List.mem_reverse.mp (notMem_numeralIn (by decide) n)
  have hreverse := congrArg (List.reverse ∘ String.toList) h
  simp only [Function.comp_apply, hchars] at hreverse
  obtain ⟨hport, hswitch⟩ := append_sep_inj (hcolon _) (hcolon _) hreverse
  obtain ⟨s, p⟩ := e
  obtain ⟨s', p'⟩ := e'
  cases String.toList_inj.mp (List.reverse_inj.mp hswitch)
  cases UInt32.toNat_inj.mp (numeralIn_inj (List.reverse_inj.mp hport))
  rfl

namespace Link

theorem toList_text (l : Link) :
    l.text.toList = l.a.switch.toList ++ ':' :: (numeralIn 10 l.a.port.toNat ++
      '-' :: (l.b.switch.toList ++ ':' :: numeralIn 10 l.b.port.toNat)) := by
  simp [text, Endpoint.text, numeral]

/-- No switch at an end has a colon in its name. -/
def Plain (l : Link) : Prop := ∀ e ∈ l.ends, ':' ∉ e.switch.toList

theorem count_colon (l : Link) :
    l.text.toList.count ':' = l.a.switch.toList.count ':' + l.b.switch.toList.count ':' + 2 := by
  have hnumeral (n : Nat) : (numeralIn 10 n).count ':' = 0 :=
    List.count_eq_zero.mpr (notMem_numeralIn (by decide) n)
  simp only [toList_text, List.count_append, List.count_cons, hnumeral]
  simp
  omega

theorem plain_iff (l : Link) : l.Plain ↔ l.text.toList.count ':' = 2 := by
  rw [count_colon]
  simp [Plain, ends, ← List.count_eq_zero]

theorem text_inj {l l' : Link} (h : l.text = l'.text) (hplain : l.Plain) : l = l' := by
  have hplain' : l'.Plain := by rwa [plain_iff, ← h, ← plain_iff]
  have hdash (n : Nat) : '-' ∉ numeralIn 10 n := notMem_numeralIn (by decide) n
  have hchars := congrArg String.toList h
  rw [toList_text, toList_text] at hchars
  obtain ⟨ha, hchars⟩ :=
    append_sep_inj (hplain l.a (by simp [ends])) (hplain' l'.a (by simp [ends])) hchars
  obtain ⟨hp, hchars⟩ := append_sep_inj (hdash _) (hdash _) hchars
  obtain ⟨hb, hq⟩ :=
    append_sep_inj (hplain l.b (by simp [ends])) (hplain' l'.b (by simp [ends])) hchars
  obtain ⟨⟨sa, pa⟩, ⟨sb, pb⟩, hl⟩ := l
  obtain ⟨⟨sa', pa'⟩, ⟨sb', pb'⟩, hl'⟩ := l'
  cases String.toList_inj.mp ha
  cases String.toList_inj.mp hb
  cases UInt32.toNat_inj.mp (numeralIn_inj hp)
  cases UInt32.toNat_inj.mp (numeralIn_inj hq)
  rfl

end Link
end Fabric
