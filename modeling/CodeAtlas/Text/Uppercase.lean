/-!
# Upper case

The upper-case form of a text, character by character.  Most characters have a
single upper-case character, at a fixed distance within a run of neighbours;
some, such as `ß`, become several.
-/

namespace CodeAtlas.Text

/-- A run of characters, every one or every other code point from `first` to
`last`, whose upper-case forms lie at distance `shift`. -/
structure CaseRun where
  first : Nat
  last : Nat
  stride : Nat
  shift : Int

/-- Neighbours above ASCII with a single upper-case character each. -/
def caseRuns : List CaseRun :=
  [⟨0xe0, 0xf6, 1, -32⟩, ⟨0xf8, 0xfe, 1, -32⟩, ⟨0x101, 0x12f, 2, -1⟩, ⟨0x133, 0x137, 2, -1⟩,
   ⟨0x13a, 0x148, 2, -1⟩, ⟨0x14b, 0x177, 2, -1⟩, ⟨0x17a, 0x17e, 2, -1⟩, ⟨0x183, 0x185, 2, -1⟩,
   ⟨0x1a1, 0x1a5, 2, -1⟩, ⟨0x1b4, 0x1b6, 2, -1⟩, ⟨0x1ce, 0x1dc, 2, -1⟩, ⟨0x1df, 0x1ef, 2, -1⟩,
   ⟨0x1f9, 0x21f, 2, -1⟩, ⟨0x223, 0x233, 2, -1⟩, ⟨0x23f, 0x240, 1, 10815⟩, ⟨0x247, 0x24f, 2, -1⟩,
   ⟨0x256, 0x257, 1, -205⟩, ⟨0x28a, 0x28b, 1, -217⟩, ⟨0x371, 0x373, 2, -1⟩, ⟨0x37b, 0x37d, 1, 130⟩,
   ⟨0x3ad, 0x3af, 1, -37⟩, ⟨0x3b1, 0x3c1, 1, -32⟩, ⟨0x3c3, 0x3cb, 1, -32⟩, ⟨0x3cd, 0x3ce, 1, -63⟩,
   ⟨0x3d9, 0x3ef, 2, -1⟩, ⟨0x430, 0x44f, 1, -32⟩, ⟨0x450, 0x45f, 1, -80⟩, ⟨0x461, 0x481, 2, -1⟩,
   ⟨0x48b, 0x4bf, 2, -1⟩, ⟨0x4c2, 0x4ce, 2, -1⟩, ⟨0x4d1, 0x52f, 2, -1⟩, ⟨0x561, 0x586, 1, -48⟩,
   ⟨0x10d0, 0x10fa, 1, 3008⟩, ⟨0x10fd, 0x10ff, 1, 3008⟩, ⟨0x13f8, 0x13fd, 1, -8⟩,
   ⟨0x1c83, 0x1c84, 1, -6242⟩, ⟨0x1e01, 0x1e95, 2, -1⟩, ⟨0x1ea1, 0x1eff, 2, -1⟩,
   ⟨0x1f00, 0x1f07, 1, 8⟩, ⟨0x1f10, 0x1f15, 1, 8⟩, ⟨0x1f20, 0x1f27, 1, 8⟩, ⟨0x1f30, 0x1f37, 1, 8⟩,
   ⟨0x1f40, 0x1f45, 1, 8⟩, ⟨0x1f51, 0x1f57, 2, 8⟩, ⟨0x1f60, 0x1f67, 1, 8⟩, ⟨0x1f70, 0x1f71, 1, 74⟩,
   ⟨0x1f72, 0x1f75, 1, 86⟩, ⟨0x1f76, 0x1f77, 1, 100⟩, ⟨0x1f78, 0x1f79, 1, 128⟩,
   ⟨0x1f7a, 0x1f7b, 1, 112⟩, ⟨0x1f7c, 0x1f7d, 1, 126⟩, ⟨0x1fb0, 0x1fb1, 1, 8⟩,
   ⟨0x1fd0, 0x1fd1, 1, 8⟩, ⟨0x1fe0, 0x1fe1, 1, 8⟩, ⟨0x2170, 0x217f, 1, -16⟩,
   ⟨0x24d0, 0x24e9, 1, -26⟩, ⟨0x2c30, 0x2c5f, 1, -48⟩, ⟨0x2c68, 0x2c6c, 2, -1⟩,
   ⟨0x2c81, 0x2ce3, 2, -1⟩, ⟨0x2cec, 0x2cee, 2, -1⟩, ⟨0x2d00, 0x2d25, 1, -7264⟩,
   ⟨0xa641, 0xa66d, 2, -1⟩, ⟨0xa681, 0xa69b, 2, -1⟩, ⟨0xa723, 0xa72f, 2, -1⟩,
   ⟨0xa733, 0xa76f, 2, -1⟩, ⟨0xa77a, 0xa77c, 2, -1⟩, ⟨0xa77f, 0xa787, 2, -1⟩,
   ⟨0xa791, 0xa793, 2, -1⟩, ⟨0xa797, 0xa7a9, 2, -1⟩, ⟨0xa7b5, 0xa7c3, 2, -1⟩,
   ⟨0xa7c8, 0xa7ca, 2, -1⟩, ⟨0xa7cd, 0xa7db, 2, -1⟩, ⟨0xab70, 0xabbf, 1, -38864⟩,
   ⟨0xff41, 0xff5a, 1, -32⟩, ⟨0x10428, 0x1044f, 1, -40⟩, ⟨0x104d8, 0x104fb, 1, -40⟩,
   ⟨0x10597, 0x105bb, 2, -39⟩, ⟨0x10598, 0x105a0, 2, -39⟩, ⟨0x105a4, 0x105b0, 2, -39⟩,
   ⟨0x105b4, 0x105b8, 2, -39⟩, ⟨0x10cc0, 0x10cf2, 1, -64⟩, ⟨0x10d70, 0x10d85, 1, -32⟩,
   ⟨0x118c0, 0x118df, 1, -32⟩, ⟨0x16e60, 0x16e7f, 1, -32⟩, ⟨0x16ebb, 0x16ed3, 1, -27⟩,
   ⟨0x1e922, 0x1e943, 1, -34⟩]

/-- Letters with an iota, which follows their upper-case form. -/
def iotaRuns : List CaseRun :=
  [⟨0x1f80, 0x1f87, 1, -120⟩, ⟨0x1f88, 0x1f8f, 1, -128⟩, ⟨0x1f90, 0x1f97, 1, -104⟩,
   ⟨0x1f98, 0x1f9f, 1, -112⟩, ⟨0x1fa0, 0x1fa7, 1, -56⟩, ⟨0x1fa8, 0x1faf, 1, -64⟩]

/-- Characters without such neighbours, each with its upper-case form. -/
def caseForms : List String :=
  ["µΜ", "ßSS", "ÿŸ", "ıI", "ŉʼN", "ſS", "ƀɃ", "ƈƇ", "ƌƋ", "ƒƑ", "ƕǶ", "ƙƘ", "ƚȽ", "ƛꟜ", "ƞȠ",
   "ƨƧ", "ƭƬ", "ưƯ", "ƹƸ", "ƽƼ", "ƿǷ", "ǅǄ", "ǆǄ", "ǈǇ", "ǉǇ", "ǋǊ", "ǌǊ", "ǝƎ", "ǰJ̌", "ǲǱ", "ǳǱ",
   "ǵǴ", "ȼȻ", "ɂɁ", "ɐⱯ", "ɑⱭ", "ɒⱰ", "ɓƁ", "ɔƆ", "əƏ", "ɛƐ", "ɜꞫ", "ɠƓ", "ɡꞬ", "ɣƔ", "ɤꟋ", "ɥꞍ",
   "ɦꞪ", "ɨƗ", "ɩƖ", "ɪꞮ", "ɫⱢ", "ɬꞭ", "ɯƜ", "ɱⱮ", "ɲƝ", "ɵƟ", "ɽⱤ", "ʀƦ", "ʂꟅ", "ʃƩ", "ʇꞱ", "ʈƮ",
   "ʉɄ", "ʌɅ", "ʒƷ", "ʝꞲ", "ʞꞰ", "\u0345Ι", "ͷͶ", "ΐΪ́", "άΆ", "ΰΫ́", "ςΣ", "όΌ", "ϐΒ", "ϑΘ",
   "ϕΦ", "ϖΠ", "ϗϏ", "ϰΚ", "ϱΡ", "ϲϹ", "ϳͿ", "ϵΕ", "ϸϷ", "ϻϺ", "ӏӀ", "ևԵՒ", "ᲀВ", "ᲁД", "ᲂО", "ᲅТ",
   "ᲆЪ", "ᲇѢ", "ᲈꙊ", "ᲊᲉ", "ᵹꝽ", "ᵽⱣ", "ᶎꟆ", "ẖH̱", "ẗT̈", "ẘW̊", "ẙY̊", "ẚAʾ", "ẛṠ", "ὐΥ̓",
   "ὒΥ̓̀", "ὔΥ̓́", "ὖΥ̓͂", "ᾲᾺΙ", "ᾳΑΙ", "ᾴΆΙ", "ᾶΑ͂", "ᾷΑ͂Ι", "ᾼΑΙ", "ιΙ", "ῂῊΙ", "ῃΗΙ", "ῄΉΙ",
   "ῆΗ͂", "ῇΗ͂Ι", "ῌΗΙ", "ῒΪ̀", "ΐΪ́", "ῖΙ͂", "ῗΪ͂", "ῢΫ̀", "ΰΫ́", "ῤΡ̓", "ῥῬ", "ῦΥ͂", "ῧΫ͂",
   "ῲῺΙ", "ῳΩΙ", "ῴΏΙ", "ῶΩ͂", "ῷΩ͂Ι", "ῼΩΙ", "ⅎℲ", "ↄↃ", "ⱡⱠ", "ⱥȺ", "ⱦȾ", "ⱳⱲ", "ⱶⱵ", "ⳳⳲ", "ⴧჇ",
   "ⴭჍ", "ꞌꞋ", "ꞔꟄ", "ꟶꟵ", "ꭓꞳ", "ﬀFF", "ﬁFI", "ﬂFL", "ﬃFFI", "ﬄFFL", "ﬅST", "ﬆST", "ﬓՄՆ", "ﬔՄԵ",
   "ﬕՄԻ", "ﬖՎՆ", "ﬗՄԽ", "𐖼𐖕"]

namespace CaseRun

/-- Whether the run holds the code point. -/
def holds (run : CaseRun) (code : Nat) : Bool :=
  run.first ≤ code && code ≤ run.last && (code - run.first) % run.stride == 0

/-- The upper-case character of one of the run. -/
def upper (run : CaseRun) (c : Char) : Char :=
  Char.ofNat (c.toNat + run.shift).toNat

end CaseRun

/-- The upper-case form of a character above ASCII. -/
def upperForm? (c : Char) : Option (List Char) :=
  (caseForms.find? (·.toList.head? == some c)).map fun form => form.toList.tail

/-- The upper-case form of a character. -/
def upperChar (c : Char) : List Char :=
  if c.toNat < 0x80 then [c.toUpper]
  else match upperForm? c with
    | some form => form
    | none => match caseRuns.find? (·.holds c.toNat), iotaRuns.find? (·.holds c.toNat) with
      | some run, _ => [run.upper c]
      | none, some run => [run.upper c, 'Ι']
      | none, none => [c]

/-- The upper-case form of a text. -/
def upper (text : String) : String :=
  String.ofList (text.toList.flatMap upperChar)

end CodeAtlas.Text
