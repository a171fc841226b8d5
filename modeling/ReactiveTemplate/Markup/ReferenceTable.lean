/-!
# ReferenceTable — the named character references of HTML

A row gives the names of the characters from its code point on, one list for each.
-/
namespace ReactiveTemplate.Markup.Reference

def namesFrom : List (Nat × List (List String)) :=
  [(0x9, [["Tab"], ["NewLine"]]), (0x21, [["excl"], [], ["num"], ["dollar"], ["percnt"], [], ["apos"], ["lpar"],
   ["rpar"], ["ast", "midast"], ["plus"], ["comma"], [], ["period"], ["sol"]]), (0x3A, [["colon"], ["semi"], [],
   ["equals"], [], ["quest"], ["commat"]]), (0x5B, [["lbrack", "lsqb"], ["bsol"], ["rbrack", "rsqb"], ["Hat"],
   ["UnderBar", "lowbar"], ["DiacriticalGrave", "grave"]]), (0x7B, [["lbrace", "lcub"], ["VerticalLine", "verbar",
   "vert"], ["rbrace", "rcub"]]), (0xA0, [["NonBreakingSpace"]]), (0xA8, [["Dot", "DoubleDot", "die"]]),
   (0xAE, [["circledR"], ["strns"], [], ["PlusMinus", "pm"], [], [], ["DiacriticalAcute"], [], [], ["CenterDot",
   "centerdot"], ["Cedilla"]]), (0xBD, [["half"]]), (0xC5, [["angst"]]), (0xF7, [["div"]]), (0x100, [["Amacr"],
   ["amacr"], ["Abreve"], ["abreve"], ["Aogon"], ["aogon"], ["Cacute"], ["cacute"], ["Ccirc"], ["ccirc"], ["Cdot"],
   ["cdot"], ["Ccaron"], ["ccaron"], ["Dcaron"], ["dcaron"], ["Dstrok"], ["dstrok"], ["Emacr"], ["emacr"], [], [],
   ["Edot"], ["edot"], ["Eogon"], ["eogon"], ["Ecaron"], ["ecaron"], ["Gcirc"], ["gcirc"], ["Gbreve"], ["gbreve"],
   ["Gdot"], ["gdot"], ["Gcedil"], [], ["Hcirc"], ["hcirc"], ["Hstrok"], ["hstrok"], ["Itilde"], ["itilde"], ["Imacr"],
   ["imacr"], [], [], ["Iogon"], ["iogon"], ["Idot"], ["imath", "inodot"], ["IJlig"], ["ijlig"], ["Jcirc"], ["jcirc"],
   ["Kcedil"], ["kcedil"], ["kgreen"], ["Lacute"], ["lacute"], ["Lcedil"], ["lcedil"], ["Lcaron"], ["lcaron"],
   ["Lmidot"], ["lmidot"], ["Lstrok"], ["lstrok"], ["Nacute"], ["nacute"], ["Ncedil"], ["ncedil"], ["Ncaron"],
   ["ncaron"], ["napos"], ["ENG"], ["eng"], ["Omacr"], ["omacr"], [], [], ["Odblac"], ["odblac"], ["OElig"], ["oelig"],
   ["Racute"], ["racute"], ["Rcedil"], ["rcedil"], ["Rcaron"], ["rcaron"], ["Sacute"], ["sacute"], ["Scirc"], ["scirc"],
   ["Scedil"], ["scedil"], ["Scaron"], ["scaron"], ["Tcedil"], ["tcedil"], ["Tcaron"], ["tcaron"], ["Tstrok"],
   ["tstrok"], ["Utilde"], ["utilde"], ["Umacr"], ["umacr"], ["Ubreve"], ["ubreve"], ["Uring"], ["uring"], ["Udblac"],
   ["udblac"], ["Uogon"], ["uogon"], ["Wcirc"], ["wcirc"], ["Ycirc"], ["ycirc"], ["Yuml"], ["Zacute"], ["zacute"],
   ["Zdot"], ["zdot"], ["Zcaron"], ["zcaron"]]), (0x192, [["fnof"]]), (0x1B5, [["imped"]]), (0x1F5, [["gacute"]]),
   (0x237, [["jmath"]]), (0x2C6, [["circ"], ["Hacek", "caron"]]), (0x2D8, [["Breve", "breve"], ["DiacriticalDot",
   "dot"], ["ring"], ["ogon"], ["DiacriticalTilde", "tilde"], ["DiacriticalDoubleAcute", "dblac"]]),
   (0x311, [["DownBreve"]]), (0x391, [["Alpha"], ["Beta"], ["Gamma"], ["Delta"], ["Epsilon"], ["Zeta"], ["Eta"],
   ["Theta"], ["Iota"], ["Kappa"], ["Lambda"], ["Mu"], ["Nu"], ["Xi"], ["Omicron"], ["Pi"], ["Rho"], [], ["Sigma"],
   ["Tau"], ["Upsilon"], ["Phi"], ["Chi"], ["Psi"], ["Omega", "ohm"]]), (0x3B1, [["alpha"], ["beta"], ["gamma"],
   ["delta"], ["epsi", "epsilon"], ["zeta"], ["eta"], ["theta"], ["iota"], ["kappa"], ["lambda"], ["mu"], ["nu"],
   ["xi"], ["omicron"], ["pi"], ["rho"], ["sigmaf", "sigmav", "varsigma"], ["sigma"], ["tau"], ["upsi", "upsilon"],
   ["phi"], ["chi"], ["psi"], ["omega"]]), (0x3D1, [["thetasym", "thetav", "vartheta"], ["Upsi", "upsih"], [], [],
   ["phiv", "straightphi", "varphi"], ["piv", "varpi"]]), (0x3DC, [["Gammad"], ["digamma", "gammad"]]),
   (0x3F0, [["kappav", "varkappa"], ["rhov", "varrho"], [], [], [], ["epsiv", "straightepsilon", "varepsilon"],
   ["backepsilon", "bepsi"]]), (0x401, [["IOcy"], ["DJcy"], ["GJcy"], ["Jukcy"], ["DScy"], ["Iukcy"], ["YIcy"],
   ["Jsercy"], ["LJcy"], ["NJcy"], ["TSHcy"], ["KJcy"], [], ["Ubrcy"], ["DZcy"], ["Acy"], ["Bcy"], ["Vcy"], ["Gcy"],
   ["Dcy"], ["IEcy"], ["ZHcy"], ["Zcy"], ["Icy"], ["Jcy"], ["Kcy"], ["Lcy"], ["Mcy"], ["Ncy"], ["Ocy"], ["Pcy"],
   ["Rcy"], ["Scy"], ["Tcy"], ["Ucy"], ["Fcy"], ["KHcy"], ["TScy"], ["CHcy"], ["SHcy"], ["SHCHcy"], ["HARDcy"], ["Ycy"],
   ["SOFTcy"], ["Ecy"], ["YUcy"], ["YAcy"], ["acy"], ["bcy"], ["vcy"], ["gcy"], ["dcy"], ["iecy"], ["zhcy"], ["zcy"],
   ["icy"], ["jcy"], ["kcy"], ["lcy"], ["mcy"], ["ncy"], ["ocy"], ["pcy"], ["rcy"], ["scy"], ["tcy"], ["ucy"], ["fcy"],
   ["khcy"], ["tscy"], ["chcy"], ["shcy"], ["shchcy"], ["hardcy"], ["ycy"], ["softcy"], ["ecy"], ["yucy"], ["yacy"], [],
   ["iocy"], ["djcy"], ["gjcy"], ["jukcy"], ["dscy"], ["iukcy"], ["yicy"], ["jsercy"], ["ljcy"], ["njcy"], ["tshcy"],
   ["kjcy"], [], ["ubrcy"], ["dzcy"]]), (0x2002, [["ensp"], ["emsp"], ["emsp13"], ["emsp14"], [], ["numsp"], ["puncsp"],
   ["ThinSpace", "thinsp"], ["VeryThinSpace", "hairsp"], ["NegativeMediumSpace", "NegativeThickSpace",
   "NegativeThinSpace", "NegativeVeryThinSpace", "ZeroWidthSpace"], ["zwnj"], ["zwj"], ["lrm"], ["rlm"], ["dash",
   "hyphen"], [], [], ["ndash"], ["mdash"], ["horbar"], ["Verbar", "Vert"], [], ["OpenCurlyQuote", "lsquo"],
   ["CloseCurlyQuote", "rsquo", "rsquor"], ["lsquor", "sbquo"], [], ["OpenCurlyDoubleQuote", "ldquo"],
   ["CloseCurlyDoubleQuote", "rdquo", "rdquor"], ["bdquo", "ldquor"], [], ["dagger"], ["Dagger", "ddagger"], ["bull",
   "bullet"], [], [], ["nldr"], ["hellip", "mldr"]]), (0x2030, [["permil"], ["pertenk"], ["prime"], ["Prime"],
   ["tprime"], ["backprime", "bprime"], [], [], [], ["lsaquo"], ["rsaquo"], [], [], [], ["OverBar", "oline"], [], [],
   ["caret"], [], ["hybull"], ["frasl"]]), (0x204F, [["bsemi"]]), (0x2057, [["qprime"]]), (0x205F, [["MediumSpace"],
   ["NoBreak"], ["ApplyFunction", "af"], ["InvisibleTimes", "it"], ["InvisibleComma", "ic"]]), (0x20AC, [["euro"]]),
   (0x20DB, [["TripleDot", "tdot"], ["DotDot"]]), (0x2102, [["Copf", "complexes"], [], [], ["incare"]]),
   (0x210A, [["gscr"], ["HilbertSpace", "Hscr", "hamilt"], ["Hfr", "Poincareplane"], ["Hopf", "quaternions"],
   ["planckh"], ["hbar", "hslash", "planck", "plankv"], ["Iscr", "imagline"], ["Ifr", "Im", "image", "imagpart"],
   ["Laplacetrf", "Lscr", "lagran"], ["ell"], [], ["Nopf", "naturals"], ["numero"], ["copysr"], ["weierp", "wp"],
   ["Popf", "primes"], ["Qopf", "rationals"], ["Rscr", "realine"], ["Re", "Rfr", "real", "realpart"], ["Ropf", "reals"],
   ["rx"], [], [], [], ["TRADE", "trade"], [], ["Zopf", "integers"], [], [], ["mho"], ["Zfr", "zeetrf"], ["iiota"], [],
   [], ["Bernoullis", "Bscr", "bernou"], ["Cayleys", "Cfr"], [], ["escr"], ["Escr", "expectation"], ["Fouriertrf",
   "Fscr"], [], ["Mellintrf", "Mscr", "phmmat"], ["order", "orderof", "oscr"], ["alefsym", "aleph"], ["beth"],
   ["gimel"], ["daleth"]]), (0x2145, [["CapitalDifferentialD", "DD"], ["DifferentialD", "dd"], ["ExponentialE", "ee",
   "exponentiale"], ["ImaginaryI", "ii"]]), (0x2153, [["frac13"], ["frac23"], ["frac15"], ["frac25"], ["frac35"],
   ["frac45"], ["frac16"], ["frac56"], ["frac18"], ["frac38"], ["frac58"], ["frac78"]]), (0x2190, [["LeftArrow",
   "ShortLeftArrow", "larr", "leftarrow", "slarr"], ["ShortUpArrow", "UpArrow", "uarr", "uparrow"], ["RightArrow",
   "ShortRightArrow", "rarr", "rightarrow", "srarr"], ["DownArrow", "ShortDownArrow", "darr", "downarrow"],
   ["LeftRightArrow", "harr", "leftrightarrow"], ["UpDownArrow", "updownarrow", "varr"], ["UpperLeftArrow", "nwarr",
   "nwarrow"], ["UpperRightArrow", "nearr", "nearrow"], ["LowerRightArrow", "searr", "searrow"], ["LowerLeftArrow",
   "swarr", "swarrow"], ["nlarr", "nleftarrow"], ["nrarr", "nrightarrow"], [], ["rarrw", "rightsquigarrow"], ["Larr",
   "twoheadleftarrow"], ["Uarr"], ["Rarr", "twoheadrightarrow"], ["Darr"], ["larrtl", "leftarrowtail"], ["rarrtl",
   "rightarrowtail"], ["LeftTeeArrow", "mapstoleft"], ["UpTeeArrow", "mapstoup"], ["RightTeeArrow", "map", "mapsto"],
   ["DownTeeArrow", "mapstodown"], [], ["hookleftarrow", "larrhk"], ["hookrightarrow", "rarrhk"], ["larrlp",
   "looparrowleft"], ["looparrowright", "rarrlp"], ["harrw", "leftrightsquigarrow"], ["nharr", "nleftrightarrow"], [],
   ["Lsh", "lsh"], ["Rsh", "rsh"], ["ldsh"], ["rdsh"], [], ["crarr"], ["cularr", "curvearrowleft"], ["curarr",
   "curvearrowright"], [], [], ["circlearrowleft", "olarr"], ["circlearrowright", "orarr"], ["LeftVector",
   "leftharpoonup", "lharu"], ["DownLeftVector", "leftharpoondown", "lhard"], ["RightUpVector", "uharr",
   "upharpoonright"], ["LeftUpVector", "uharl", "upharpoonleft"], ["RightVector", "rharu", "rightharpoonup"],
   ["DownRightVector", "rhard", "rightharpoondown"], ["RightDownVector", "dharr", "downharpoonright"],
   ["LeftDownVector", "dharl", "downharpoonleft"], ["RightArrowLeftArrow", "rightleftarrows", "rlarr"],
   ["UpArrowDownArrow", "udarr"], ["LeftArrowRightArrow", "leftrightarrows", "lrarr"], ["leftleftarrows", "llarr"],
   ["upuparrows", "uuarr"], ["rightrightarrows", "rrarr"], ["ddarr", "downdownarrows"], ["ReverseEquilibrium",
   "leftrightharpoons", "lrhar"], ["Equilibrium", "rightleftharpoons", "rlhar"], ["nLeftarrow", "nlArr"],
   ["nLeftrightarrow", "nhArr"], ["nRightarrow", "nrArr"], ["DoubleLeftArrow", "Leftarrow", "lArr"], ["DoubleUpArrow",
   "Uparrow", "uArr"], ["DoubleRightArrow", "Implies", "Rightarrow", "rArr"], ["DoubleDownArrow", "Downarrow", "dArr"],
   ["DoubleLeftRightArrow", "Leftrightarrow", "hArr", "iff"], ["DoubleUpDownArrow", "Updownarrow", "vArr"], ["nwArr"],
   ["neArr"], ["seArr"], ["swArr"], ["Lleftarrow", "lAarr"], ["Rrightarrow", "rAarr"], [], ["zigrarr"]]),
   (0x21E4, [["LeftArrowBar", "larrb"], ["RightArrowBar", "rarrb"]]), (0x21F5, [["DownArrowUpArrow", "duarr"]]),
   (0x21FD, [["loarr"], ["roarr"], ["hoarr"], ["ForAll", "forall"], ["comp", "complement"], ["PartialD", "part"],
   ["Exists", "exist"], ["NotExists", "nexist", "nexists"], ["empty", "emptyset", "emptyv", "varnothing"], [], ["Del",
   "nabla"], ["Element", "in", "isin", "isinv"], ["NotElement", "notin", "notinva"], [], ["ReverseElement", "SuchThat",
   "ni", "niv"], ["NotReverseElement", "notni", "notniva"], [], [], ["Product", "prod"], ["Coproduct", "coprod"],
   ["Sum", "sum"], ["minus"], ["MinusPlus", "mnplus", "mp"], ["dotplus", "plusdo"], [], ["Backslash", "setminus",
   "setmn", "smallsetminus", "ssetmn"], ["lowast"], ["SmallCircle", "compfn"], [], ["Sqrt", "radic"], [], [],
   ["Proportional", "prop", "propto", "varpropto", "vprop"], ["infin"], ["angrt"], ["ang", "angle"], ["angmsd",
   "measuredangle"], ["angsph"], ["VerticalBar", "mid", "shortmid", "smid"], ["NotVerticalBar", "nmid", "nshortmid",
   "nsmid"], ["DoubleVerticalBar", "par", "parallel", "shortparallel", "spar"], ["NotDoubleVerticalBar", "npar",
   "nparallel", "nshortparallel", "nspar"], ["and", "wedge"], ["or", "vee"], ["cap"], ["cup"], ["Integral", "int"],
   ["Int"], ["iiint", "tint"], ["ContourIntegral", "conint", "oint"], ["Conint", "DoubleContourIntegral"], ["Cconint"],
   ["cwint"], ["ClockwiseContourIntegral", "cwconint"], ["CounterClockwiseContourIntegral", "awconint"], ["Therefore",
   "there4", "therefore"], ["Because", "becaus", "because"], ["ratio"], ["Colon", "Proportion"], ["dotminus", "minusd"],
   [], ["mDDot"], ["homtht"], ["Tilde", "sim", "thicksim", "thksim"], ["backsim", "bsim"], ["ac", "mstpos"], ["acd"],
   ["VerticalTilde", "wr", "wreath"], ["NotTilde", "nsim"], ["EqualTilde", "eqsim", "esim"], ["TildeEqual", "sime",
   "simeq"], ["NotTildeEqual", "nsime", "nsimeq"], ["TildeFullEqual", "cong"], ["simne"], ["NotTildeFullEqual",
   "ncong"], ["TildeTilde", "ap", "approx", "asymp", "thickapprox", "thkap"], ["NotTildeTilde", "nap", "napprox"],
   ["ape", "approxeq"], ["apid"], ["backcong", "bcong"], ["CupCap", "asympeq"], ["Bumpeq", "HumpDownHump", "bump"],
   ["HumpEqual", "bumpe", "bumpeq"], ["DotEqual", "doteq", "esdot"], ["doteqdot", "eDot"], ["efDot", "fallingdotseq"],
   ["erDot", "risingdotseq"], ["Assign", "colone", "coloneq"], ["ecolon", "eqcolon"], ["ecir", "eqcirc"], ["circeq",
   "cire"], [], ["wedgeq"], ["veeeq"], [], ["triangleq", "trie"], [], [], ["equest", "questeq"], ["NotEqual", "ne"],
   ["Congruent", "equiv"], ["NotCongruent", "nequiv"], [], ["le", "leq"], ["GreaterEqual", "ge", "geq"],
   ["LessFullEqual", "lE", "leqq"], ["GreaterFullEqual", "gE", "geqq"], ["lnE", "lneqq"], ["gnE", "gneqq"], ["Lt",
   "NestedLessLess", "ll"], ["Gt", "NestedGreaterGreater", "gg"], ["between", "twixt"], ["NotCupCap"], ["NotLess",
   "nless", "nlt"], ["NotGreater", "ngt", "ngtr"], ["NotLessEqual", "nle", "nleq"], ["NotGreaterEqual", "nge", "ngeq"],
   ["LessTilde", "lesssim", "lsim"], ["GreaterTilde", "gsim", "gtrsim"], ["NotLessTilde", "nlsim"], ["NotGreaterTilde",
   "ngsim"], ["LessGreater", "lessgtr", "lg"], ["GreaterLess", "gl", "gtrless"], ["NotLessGreater", "ntlg"],
   ["NotGreaterLess", "ntgl"], ["Precedes", "pr", "prec"], ["Succeeds", "sc", "succ"], ["PrecedesSlantEqual", "prcue",
   "preccurlyeq"], ["SucceedsSlantEqual", "sccue", "succcurlyeq"], ["PrecedesTilde", "precsim", "prsim"],
   ["SucceedsTilde", "scsim", "succsim"], ["NotPrecedes", "npr", "nprec"], ["NotSucceeds", "nsc", "nsucc"], ["sub",
   "subset"], ["Superset", "sup", "supset"], ["nsub"], ["nsup"], ["SubsetEqual", "sube", "subseteq"], ["SupersetEqual",
   "supe", "supseteq"], ["NotSubsetEqual", "nsube", "nsubseteq"], ["NotSupersetEqual", "nsupe", "nsupseteq"], ["subne",
   "subsetneq"], ["supne", "supsetneq"], [], ["cupdot"], ["UnionPlus", "uplus"], ["SquareSubset", "sqsub", "sqsubset"],
   ["SquareSuperset", "sqsup", "sqsupset"], ["SquareSubsetEqual", "sqsube", "sqsubseteq"], ["SquareSupersetEqual",
   "sqsupe", "sqsupseteq"], ["SquareIntersection", "sqcap"], ["SquareUnion", "sqcup"], ["CirclePlus", "oplus"],
   ["CircleMinus", "ominus"], ["CircleTimes", "otimes"], ["osol"], ["CircleDot", "odot"], ["circledcirc", "ocir"],
   ["circledast", "oast"], [], ["circleddash", "odash"], ["boxplus", "plusb"], ["boxminus", "minusb"], ["boxtimes",
   "timesb"], ["dotsquare", "sdotb"], ["RightTee", "vdash"], ["LeftTee", "dashv"], ["DownTee", "top"], ["UpTee", "bot",
   "bottom", "perp"], [], ["models"], ["DoubleRightTee", "vDash"], ["Vdash"], ["Vvdash"], ["VDash"], ["nvdash"],
   ["nvDash"], ["nVdash"], ["nVDash"], ["prurel"], [], ["LeftTriangle", "vartriangleleft", "vltri"], ["RightTriangle",
   "vartriangleright", "vrtri"], ["LeftTriangleEqual", "ltrie", "trianglelefteq"], ["RightTriangleEqual", "rtrie",
   "trianglerighteq"], ["origof"], ["imof"], ["multimap", "mumap"], ["hercon"], ["intcal", "intercal"], ["veebar"], [],
   ["barvee"], ["angrtvb"], ["lrtri"], ["Wedge", "bigwedge", "xwedge"], ["Vee", "bigvee", "xvee"], ["Intersection",
   "bigcap", "xcap"], ["Union", "bigcup", "xcup"], ["Diamond", "diam", "diamond"], ["sdot"], ["Star", "sstarf"],
   ["divideontimes", "divonx"], ["bowtie"], ["ltimes"], ["rtimes"], ["leftthreetimes", "lthree"], ["rightthreetimes",
   "rthree"], ["backsimeq", "bsime"], ["curlyvee", "cuvee"], ["curlywedge", "cuwed"], ["Sub", "Subset"], ["Sup",
   "Supset"], ["Cap"], ["Cup"], ["fork", "pitchfork"], ["epar"], ["lessdot", "ltdot"], ["gtdot", "gtrdot"], ["Ll"],
   ["Gg", "ggg"], ["LessEqualGreater", "leg", "lesseqgtr"], ["GreaterEqualLess", "gel", "gtreqless"], [], [], ["cuepr",
   "curlyeqprec"], ["cuesc", "curlyeqsucc"], ["NotPrecedesSlantEqual", "nprcue"], ["NotSucceedsSlantEqual", "nsccue"],
   ["NotSquareSubsetEqual", "nsqsube"], ["NotSquareSupersetEqual", "nsqsupe"], [], [], ["lnsim"], ["gnsim"],
   ["precnsim", "prnsim"], ["scnsim", "succnsim"], ["NotLeftTriangle", "nltri", "ntriangleleft"], ["NotRightTriangle",
   "nrtri", "ntriangleright"], ["NotLeftTriangleEqual", "nltrie", "ntrianglelefteq"], ["NotRightTriangleEqual",
   "nrtrie", "ntrianglerighteq"], ["vellip"], ["ctdot"], ["utdot"], ["dtdot"], ["disin"], ["isinsv"], ["isins"],
   ["isindot"], ["notinvc"], ["notinvb"], [], ["isinE"], ["nisd"], ["xnis"], ["nis"], ["notnivc"], ["notnivb"]]),
   (0x2305, [["barwed", "barwedge"], ["Barwed", "doublebarwedge"], [], ["LeftCeiling", "lceil"], ["RightCeiling",
   "rceil"], ["LeftFloor", "lfloor"], ["RightFloor", "rfloor"], ["drcrop"], ["dlcrop"], ["urcrop"], ["ulcrop"],
   ["bnot"], [], ["profline"], ["profsurf"], [], ["telrec"], ["target"]]), (0x231C, [["ulcorn", "ulcorner"], ["urcorn",
   "urcorner"], ["dlcorn", "llcorner"], ["drcorn", "lrcorner"], [], [], ["frown", "sfrown"], ["smile", "ssmile"]]),
   (0x232D, [["cylcty"], ["profalar"]]), (0x2336, [["topbot"]]), (0x233D, [["ovbar"], [], ["solbar"]]),
   (0x237C, [["angzarr"]]), (0x23B0, [["lmoust", "lmoustache"], ["rmoust", "rmoustache"], [], [], ["OverBracket",
   "tbrk"], ["UnderBracket", "bbrk"], ["bbrktbrk"]]), (0x23DC, [["OverParenthesis"], ["UnderParenthesis"],
   ["OverBrace"], ["UnderBrace"], [], [], ["trpezium"]]), (0x23E7, [["elinters"]]), (0x2423, [["blank"]]),
   (0x24C8, [["circledS", "oS"]]), (0x2500, [["HorizontalLine", "boxh"], [], ["boxv"]]), (0x250C, [["boxdr"], [], [],
   [], ["boxdl"], [], [], [], ["boxur"], [], [], [], ["boxul"], [], [], [], ["boxvr"]]), (0x2524, [["boxvl"]]),
   (0x252C, [["boxhd"]]), (0x2534, [["boxhu"]]), (0x253C, [["boxvh"]]), (0x2550, [["boxH"], ["boxV"], ["boxdR"],
   ["boxDr"], ["boxDR"], ["boxdL"], ["boxDl"], ["boxDL"], ["boxuR"], ["boxUr"], ["boxUR"], ["boxuL"], ["boxUl"],
   ["boxUL"], ["boxvR"], ["boxVr"], ["boxVR"], ["boxvL"], ["boxVl"], ["boxVL"], ["boxHd"], ["boxhD"], ["boxHD"],
   ["boxHu"], ["boxhU"], ["boxHU"], ["boxvH"], ["boxVh"], ["boxVH"]]), (0x2580, [["uhblk"], [], [], [], ["lhblk"], [],
   [], [], ["block"]]), (0x2591, [["blk14"], ["blk12"], ["blk34"]]), (0x25A1, [["Square", "squ", "square"]]),
   (0x25AA, [["FilledVerySmallSquare", "blacksquare", "squarf", "squf"], ["EmptyVerySmallSquare"], [], ["rect"],
   ["marker"], [], [], ["fltns"], [], ["bigtriangleup", "xutri"], ["blacktriangle", "utrif"], ["triangle", "utri"], [],
   [], ["blacktriangleright", "rtrif"], ["rtri", "triangleright"], [], [], [], ["bigtriangledown", "xdtri"],
   ["blacktriangledown", "dtrif"], ["dtri", "triangledown"], [], [], ["blacktriangleleft", "ltrif"], ["ltri",
   "triangleleft"]]), (0x25CA, [["loz", "lozenge"], ["cir"]]), (0x25EC, [["tridot"], [], [], ["bigcirc", "xcirc"]]),
   (0x25F8, [["ultri"], ["urtri"], ["lltri"], ["EmptySmallSquare"], ["FilledSmallSquare"]]), (0x2605, [["bigstar",
   "starf"], ["star"]]), (0x260E, [["phone"]]), (0x2640, [["female"], [], ["male"]]), (0x2660, [["spades", "spadesuit"],
   [], [], ["clubs", "clubsuit"], [], ["hearts", "heartsuit"], ["diamondsuit", "diams"], [], [], [], ["sung"], [], [],
   ["flat"], ["natur", "natural"], ["sharp"]]), (0x2713, [["check", "checkmark"], [], [], [], ["cross"]]),
   (0x2720, [["malt", "maltese"]]), (0x2736, [["sext"]]), (0x2758, [["VerticalSeparator"]]), (0x2772, [["lbbrk"],
   ["rbbrk"]]), (0x27C8, [["bsolhsub"], ["suphsol"]]), (0x27E6, [["LeftDoubleBracket", "lobrk"], ["RightDoubleBracket",
   "robrk"], ["LeftAngleBracket", "lang", "langle"], ["RightAngleBracket", "rang", "rangle"], ["Lang"], ["Rang"],
   ["loang"], ["roang"]]), (0x27F5, [["LongLeftArrow", "longleftarrow", "xlarr"], ["LongRightArrow", "longrightarrow",
   "xrarr"], ["LongLeftRightArrow", "longleftrightarrow", "xharr"], ["DoubleLongLeftArrow", "Longleftarrow", "xlArr"],
   ["DoubleLongRightArrow", "Longrightarrow", "xrArr"], ["DoubleLongLeftRightArrow", "Longleftrightarrow", "xhArr"], [],
   ["longmapsto", "xmap"], [], [], ["dzigrarr"]]), (0x2902, [["nvlArr"], ["nvrArr"], ["nvHarr"], ["Map"]]),
   (0x290C, [["lbarr"], ["bkarow", "rbarr"], ["lBarr"], ["dbkarow", "rBarr"], ["RBarr", "drbkarow"], ["DDotrahd"],
   ["UpArrowBar"], ["DownArrowBar"], [], [], ["Rarrtl"], [], [], ["latail"], ["ratail"], ["lAtail"], ["rAtail"],
   ["larrfs"], ["rarrfs"], ["larrbfs"], ["rarrbfs"], [], [], ["nwarhk"], ["nearhk"], ["hksearow", "searhk"],
   ["hkswarow", "swarhk"], ["nwnear"], ["nesear", "toea"], ["seswar", "tosa"], ["swnwar"]]), (0x2933, [["rarrc"], [],
   ["cudarrr"], ["ldca"], ["rdca"], ["cudarrl"], ["larrpl"], [], [], ["curarrm"], ["cularrp"]]), (0x2945, [["rarrpl"],
   [], [], ["harrcir"], ["Uarrocir"], ["lurdshar"], ["ldrushar"], [], [], ["LeftRightVector"], ["RightUpDownVector"],
   ["DownLeftRightVector"], ["LeftUpDownVector"], ["LeftVectorBar"], ["RightVectorBar"], ["RightUpVectorBar"],
   ["RightDownVectorBar"], ["DownLeftVectorBar"], ["DownRightVectorBar"], ["LeftUpVectorBar"], ["LeftDownVectorBar"],
   ["LeftTeeVector"], ["RightTeeVector"], ["RightUpTeeVector"], ["RightDownTeeVector"], ["DownLeftTeeVector"],
   ["DownRightTeeVector"], ["LeftUpTeeVector"], ["LeftDownTeeVector"], ["lHar"], ["uHar"], ["rHar"], ["dHar"],
   ["luruhar"], ["ldrdhar"], ["ruluhar"], ["rdldhar"], ["lharul"], ["llhard"], ["rharul"], ["lrhard"], ["UpEquilibrium",
   "udhar"], ["ReverseUpEquilibrium", "duhar"], ["RoundImplies"], ["erarr"], ["simrarr"], ["larrsim"], ["rarrsim"],
   ["rarrap"], ["ltlarr"], [], ["gtrarr"], ["subrarr"], [], ["suplarr"], ["lfisht"], ["rfisht"], ["ufisht"],
   ["dfisht"]]), (0x2985, [["lopar"], ["ropar"]]), (0x298B, [["lbrke"], ["rbrke"], ["lbrkslu"], ["rbrksld"],
   ["lbrksld"], ["rbrkslu"], ["langd"], ["rangd"], ["lparlt"], ["rpargt"], ["gtlPar"], ["ltrPar"], [], [], [],
   ["vzigzag"], [], ["vangrt"], ["angrtvbd"]]), (0x29A4, [["ange"], ["range"], ["dwangle"], ["uwangle"], ["angmsdaa"],
   ["angmsdab"], ["angmsdac"], ["angmsdad"], ["angmsdae"], ["angmsdaf"], ["angmsdag"], ["angmsdah"], ["bemptyv"],
   ["demptyv"], ["cemptyv"], ["raemptyv"], ["laemptyv"], ["ohbar"], ["omid"], ["opar"], [], ["operp"], [], ["olcross"],
   ["odsold"], [], ["olcir"], ["ofcir"], ["olt"], ["ogt"], ["cirscir"], ["cirE"], ["solb"], ["bsolb"], [], [], [],
   ["boxbox"], [], [], [], ["trisb"], ["rtriltri"], ["LeftTriangleBar"], ["RightTriangleBar"]]), (0x29DC, [["iinfin"],
   ["infintie"], ["nvinfin"]]), (0x29E3, [["eparsl"], ["smeparsl"], ["eqvparsl"]]), (0x29EB, [["blacklozenge",
   "lozf"]]), (0x29F4, [["RuleDelayed"], [], ["dsol"]]), (0x2A00, [["bigodot", "xodot"], ["bigoplus", "xoplus"],
   ["bigotimes", "xotime"], [], ["biguplus", "xuplus"], [], ["bigsqcup", "xsqcup"]]), (0x2A0C, [["iiiint", "qint"],
   ["fpartint"], [], [], ["cirfnint"], ["awint"], ["rppolint"], ["scpolint"], ["npolint"], ["pointint"], ["quatint"],
   ["intlarhk"]]), (0x2A22, [["pluscir"], ["plusacir"], ["simplus"], ["plusdu"], ["plussim"], ["plustwo"], [],
   ["mcomma"], ["minusdu"], [], [], ["loplus"], ["roplus"], ["Cross"], ["timesd"], ["timesbar"], [], ["smashp"],
   ["lotimes"], ["rotimes"], ["otimesas"], ["Otimes"], ["odiv"], ["triplus"], ["triminus"], ["tritime"], ["intprod",
   "iprod"], [], [], ["amalg"], ["capdot"], [], ["ncup"], ["ncap"], ["capand"], ["cupor"], ["cupcap"], ["capcup"],
   ["cupbrcap"], ["capbrcup"], ["cupcup"], ["capcap"], ["ccups"], ["ccaps"], [], [], ["ccupssm"], [], [], ["And"],
   ["Or"], ["andand"], ["oror"], ["orslope"], ["andslope"], [], ["andv"], ["orv"], ["andd"], ["ord"], [], ["wedbar"]]),
   (0x2A66, [["sdote"], [], [], [], ["simdot"], [], [], ["congdot"], ["easter"], ["apacir"], ["apE"], ["eplus"],
   ["pluse"], ["Esim"], ["Colone"], ["Equal"], [], ["ddotseq", "eDDot"], ["equivDD"], ["ltcir"], ["gtcir"], ["ltquest"],
   ["gtquest"], ["LessSlantEqual", "leqslant", "les"], ["GreaterSlantEqual", "geqslant", "ges"], ["lesdot"], ["gesdot"],
   ["lesdoto"], ["gesdoto"], ["lesdotor"], ["gesdotol"], ["lap", "lessapprox"], ["gap", "gtrapprox"], ["lne", "lneq"],
   ["gne", "gneq"], ["lnap", "lnapprox"], ["gnap", "gnapprox"], ["lEg", "lesseqqgtr"], ["gEl", "gtreqqless"], ["lsime"],
   ["gsime"], ["lsimg"], ["gsiml"], ["lgE"], ["glE"], ["lesges"], ["gesles"], ["els", "eqslantless"], ["egs",
   "eqslantgtr"], ["elsdot"], ["egsdot"], ["el"], ["eg"], [], [], ["siml"], ["simg"], ["simlE"], ["simgE"],
   ["LessLess"], ["GreaterGreater"], [], ["glj"], ["gla"], ["ltcc"], ["gtcc"], ["lescc"], ["gescc"], ["smt"], ["lat"],
   ["smte"], ["late"], ["bumpE"], ["PrecedesEqual", "pre", "preceq"], ["SucceedsEqual", "sce", "succeq"], [], [],
   ["prE"], ["scE"], ["precneqq", "prnE"], ["scnE", "succneqq"], ["prap", "precapprox"], ["scap", "succapprox"],
   ["precnapprox", "prnap"], ["scnap", "succnapprox"], ["Pr"], ["Sc"], ["subdot"], ["supdot"], ["subplus"], ["supplus"],
   ["submult"], ["supmult"], ["subedot"], ["supedot"], ["subE", "subseteqq"], ["supE", "supseteqq"], ["subsim"],
   ["supsim"], [], [], ["subnE", "subsetneqq"], ["supnE", "supsetneqq"], [], [], ["csub"], ["csup"], ["csube"],
   ["csupe"], ["subsup"], ["supsub"], ["subsub"], ["supsup"], ["suphsub"], ["supdsub"], ["forkv"], ["topfork"],
   ["mlcp"]]), (0x2AE4, [["Dashv", "DoubleLeftTee"], [], ["Vdashl"], ["Barv"], ["vBar"], ["vBarv"], [], ["Vbar"],
   ["Not"], ["bNot"], ["rnmid"], ["cirmid"], ["midcir"], ["topcir"], ["nhpar"], ["parsim"]]), (0x2AFD, [["parsl"]]),
   (0xFB00, [["fflig"], ["filig"], ["fllig"], ["ffilig"], ["ffllig"]]), (0x1D49C, [["Ascr"], [], ["Cscr"], ["Dscr"], [],
   [], ["Gscr"], [], [], ["Jscr"], ["Kscr"], [], [], ["Nscr"], ["Oscr"], ["Pscr"], ["Qscr"], [], ["Sscr"], ["Tscr"],
   ["Uscr"], ["Vscr"], ["Wscr"], ["Xscr"], ["Yscr"], ["Zscr"], ["ascr"], ["bscr"], ["cscr"], ["dscr"], [], ["fscr"], [],
   ["hscr"], ["iscr"], ["jscr"], ["kscr"], ["lscr"], ["mscr"], ["nscr"], [], ["pscr"], ["qscr"], ["rscr"], ["sscr"],
   ["tscr"], ["uscr"], ["vscr"], ["wscr"], ["xscr"], ["yscr"], ["zscr"]]), (0x1D504, [["Afr"], ["Bfr"], [], ["Dfr"],
   ["Efr"], ["Ffr"], ["Gfr"], [], [], ["Jfr"], ["Kfr"], ["Lfr"], ["Mfr"], ["Nfr"], ["Ofr"], ["Pfr"], ["Qfr"], [],
   ["Sfr"], ["Tfr"], ["Ufr"], ["Vfr"], ["Wfr"], ["Xfr"], ["Yfr"], [], ["afr"], ["bfr"], ["cfr"], ["dfr"], ["efr"],
   ["ffr"], ["gfr"], ["hfr"], ["ifr"], ["jfr"], ["kfr"], ["lfr"], ["mfr"], ["nfr"], ["ofr"], ["pfr"], ["qfr"], ["rfr"],
   ["sfr"], ["tfr"], ["ufr"], ["vfr"], ["wfr"], ["xfr"], ["yfr"], ["zfr"], ["Aopf"], ["Bopf"], [], ["Dopf"], ["Eopf"],
   ["Fopf"], ["Gopf"], [], ["Iopf"], ["Jopf"], ["Kopf"], ["Lopf"], ["Mopf"], [], ["Oopf"], [], [], [], ["Sopf"],
   ["Topf"], ["Uopf"], ["Vopf"], ["Wopf"], ["Xopf"], ["Yopf"], [], ["aopf"], ["bopf"], ["copf"], ["dopf"], ["eopf"],
   ["fopf"], ["gopf"], ["hopf"], ["iopf"], ["jopf"], ["kopf"], ["lopf"], ["mopf"], ["nopf"], ["oopf"], ["popf"],
   ["qopf"], ["ropf"], ["sopf"], ["topf"], ["uopf"], ["vopf"], ["wopf"], ["xopf"], ["yopf"], ["zopf"]])]

def looseNamesFrom : List (Nat × List (List String)) :=
  [(0x22, [["QUOT", "quot"], [], [], [], ["AMP", "amp"]]), (0x3C, [["LT", "lt"], [], ["GT", "gt"]]), (0xA0, [["nbsp"],
   ["iexcl"], ["cent"], ["pound"], ["curren"], ["yen"], ["brvbar"], ["sect"], ["uml"], ["COPY", "copy"], ["ordf"],
   ["laquo"], ["not"], ["shy"], ["REG", "reg"], ["macr"], ["deg"], ["plusmn"], ["sup2"], ["sup3"], ["acute"], ["micro"],
   ["para"], ["middot"], ["cedil"], ["sup1"], ["ordm"], ["raquo"], ["frac14"], ["frac12"], ["frac34"], ["iquest"],
   ["Agrave"], ["Aacute"], ["Acirc"], ["Atilde"], ["Auml"], ["Aring"], ["AElig"], ["Ccedil"], ["Egrave"], ["Eacute"],
   ["Ecirc"], ["Euml"], ["Igrave"], ["Iacute"], ["Icirc"], ["Iuml"], ["ETH"], ["Ntilde"], ["Ograve"], ["Oacute"],
   ["Ocirc"], ["Otilde"], ["Ouml"], ["times"], ["Oslash"], ["Ugrave"], ["Uacute"], ["Ucirc"], ["Uuml"], ["Yacute"],
   ["THORN"], ["szlig"], ["agrave"], ["aacute"], ["acirc"], ["atilde"], ["auml"], ["aring"], ["aelig"], ["ccedil"],
   ["egrave"], ["eacute"], ["ecirc"], ["euml"], ["igrave"], ["iacute"], ["icirc"], ["iuml"], ["eth"], ["ntilde"],
   ["ograve"], ["oacute"], ["ocirc"], ["otilde"], ["ouml"], ["divide"], ["oslash"], ["ugrave"], ["uacute"], ["ucirc"],
   ["uuml"], ["yacute"], ["thorn"], ["yuml"]])]

def namesOfPairs : List (String × List Nat) :=
  [("NotEqualTilde", [0x2242, 0x338]), ("NotGreaterFullEqual", [0x2267, 0x338]), ("NotGreaterGreater", [0x226B, 0x338]),
   ("NotGreaterSlantEqual", [0x2A7E, 0x338]), ("NotHumpDownHump", [0x224E, 0x338]), ("NotHumpEqual", [0x224F, 0x338]),
   ("NotLeftTriangleBar", [0x29CF, 0x338]), ("NotLessLess", [0x226A, 0x338]), ("NotLessSlantEqual", [0x2A7D, 0x338]),
   ("NotNestedGreaterGreater", [0x2AA2, 0x338]), ("NotNestedLessLess", [0x2AA1, 0x338]),
   ("NotPrecedesEqual", [0x2AAF, 0x338]), ("NotRightTriangleBar", [0x29D0, 0x338]),
   ("NotSquareSubset", [0x228F, 0x338]), ("NotSquareSuperset", [0x2290, 0x338]), ("NotSubset", [0x2282, 0x20D2]),
   ("NotSucceedsEqual", [0x2AB0, 0x338]), ("NotSucceedsTilde", [0x227F, 0x338]), ("NotSuperset", [0x2283, 0x20D2]),
   ("ThickSpace", [0x205F, 0x200A]), ("acE", [0x223E, 0x333]), ("bne", [0x3D, 0x20E5]), ("bnequiv", [0x2261, 0x20E5]),
   ("caps", [0x2229, 0xFE00]), ("cups", [0x222A, 0xFE00]), ("fjlig", [0x66, 0x6A]), ("gesl", [0x22DB, 0xFE00]),
   ("gvertneqq", [0x2269, 0xFE00]), ("gvnE", [0x2269, 0xFE00]), ("lates", [0x2AAD, 0xFE00]), ("lesg", [0x22DA, 0xFE00]),
   ("lvertneqq", [0x2268, 0xFE00]), ("lvnE", [0x2268, 0xFE00]), ("nGg", [0x22D9, 0x338]), ("nGt", [0x226B, 0x20D2]),
   ("nGtv", [0x226B, 0x338]), ("nLl", [0x22D8, 0x338]), ("nLt", [0x226A, 0x20D2]), ("nLtv", [0x226A, 0x338]),
   ("nang", [0x2220, 0x20D2]), ("napE", [0x2A70, 0x338]), ("napid", [0x224B, 0x338]), ("nbump", [0x224E, 0x338]),
   ("nbumpe", [0x224F, 0x338]), ("ncongdot", [0x2A6D, 0x338]), ("nedot", [0x2250, 0x338]), ("nesim", [0x2242, 0x338]),
   ("ngE", [0x2267, 0x338]), ("ngeqq", [0x2267, 0x338]), ("ngeqslant", [0x2A7E, 0x338]), ("nges", [0x2A7E, 0x338]),
   ("nlE", [0x2266, 0x338]), ("nleqq", [0x2266, 0x338]), ("nleqslant", [0x2A7D, 0x338]), ("nles", [0x2A7D, 0x338]),
   ("notinE", [0x22F9, 0x338]), ("notindot", [0x22F5, 0x338]), ("nparsl", [0x2AFD, 0x20E5]), ("npart", [0x2202, 0x338]),
   ("npre", [0x2AAF, 0x338]), ("npreceq", [0x2AAF, 0x338]), ("nrarrc", [0x2933, 0x338]), ("nrarrw", [0x219D, 0x338]),
   ("nsce", [0x2AB0, 0x338]), ("nsubE", [0x2AC5, 0x338]), ("nsubset", [0x2282, 0x20D2]),
   ("nsubseteqq", [0x2AC5, 0x338]), ("nsucceq", [0x2AB0, 0x338]), ("nsupE", [0x2AC6, 0x338]),
   ("nsupset", [0x2283, 0x20D2]), ("nsupseteqq", [0x2AC6, 0x338]), ("nvap", [0x224D, 0x20D2]),
   ("nvge", [0x2265, 0x20D2]), ("nvgt", [0x3E, 0x20D2]), ("nvle", [0x2264, 0x20D2]), ("nvlt", [0x3C, 0x20D2]),
   ("nvltrie", [0x22B4, 0x20D2]), ("nvrtrie", [0x22B5, 0x20D2]), ("nvsim", [0x223C, 0x20D2]), ("race", [0x223D, 0x331]),
   ("smtes", [0x2AAC, 0xFE00]), ("sqcaps", [0x2293, 0xFE00]), ("sqcups", [0x2294, 0xFE00]),
   ("varsubsetneq", [0x228A, 0xFE00]), ("varsubsetneqq", [0x2ACB, 0xFE00]), ("varsupsetneq", [0x228B, 0xFE00]),
   ("varsupsetneqq", [0x2ACC, 0xFE00]), ("vnsub", [0x2282, 0x20D2]), ("vnsup", [0x2283, 0x20D2]),
   ("vsubnE", [0x2ACB, 0xFE00]), ("vsubne", [0x228A, 0xFE00]), ("vsupnE", [0x2ACC, 0xFE00]),
   ("vsupne", [0x228B, 0xFE00])]

def spread (rows : List (Nat × List (List String))) : List (String × List Nat) :=
  rows.flatMap (fun row => (row.2.zipIdx row.1).flatMap (fun (names, point) => names.map (·, [point])))

def named : List (String × List Nat) :=
  (spread namesFrom ++ spread looseNamesFrom ++ namesOfPairs).map (fun (name, points) => (name ++ ";", points)) ++
    spread looseNamesFrom

end ReactiveTemplate.Markup.Reference
