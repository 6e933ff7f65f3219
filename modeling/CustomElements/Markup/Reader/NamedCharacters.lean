/-!
# The named characters of markup

Each name stands for one or two characters, which are given by their numbers in hexadecimal, joined
by a plus sign. Names that may be written without a semicolon are listed twice.
-/

namespace CustomElements.Markup

/-- Names and numbers in turn, in rows of names with the same first two characters. -/
def namedCharacterTable : List (String × String) := [
  ("AE", "AElig c6 AElig; c6"),
  ("AM", "AMP 26 AMP; 26"),
  ("Aa", "Aacute c1 Aacute; c1"),
  ("Ab", "Abreve; 102"),
  ("Ac", "Acirc c2 Acirc; c2 Acy; 410"),
  ("Af", "Afr; 1d504"),
  ("Ag", "Agrave c0 Agrave; c0"),
  ("Al", "Alpha; 391"),
  ("Am", "Amacr; 100"),
  ("An", "And; 2a53"),
  ("Ao", "Aogon; 104 Aopf; 1d538"),
  ("Ap", "ApplyFunction; 2061"),
  ("Ar", "Aring c5 Aring; c5"),
  ("As", "Ascr; 1d49c Assign; 2254"),
  ("At", "Atilde c3 Atilde; c3"),
  ("Au", "Auml c4 Auml; c4"),
  ("Ba", "Backslash; 2216 Barv; 2ae7 Barwed; 2306"),
  ("Bc", "Bcy; 411"),
  ("Be", "Because; 2235 Bernoullis; 212c Beta; 392"),
  ("Bf", "Bfr; 1d505"),
  ("Bo", "Bopf; 1d539"),
  ("Br", "Breve; 2d8"),
  ("Bs", "Bscr; 212c"),
  ("Bu", "Bumpeq; 224e"),
  ("CH", "CHcy; 427"),
  ("CO", "COPY a9 COPY; a9"),
  ("Ca", "Cacute; 106 Cap; 22d2 CapitalDifferentialD; 2145 Cayleys; 212d"),
  ("Cc", "Ccaron; 10c Ccedil c7 Ccedil; c7 Ccirc; 108 Cconint; 2230"),
  ("Cd", "Cdot; 10a"),
  ("Ce", "Cedilla; b8 CenterDot; b7"),
  ("Cf", "Cfr; 212d"),
  ("Ch", "Chi; 3a7"),
  ("Ci", "CircleDot; 2299 CircleMinus; 2296 CirclePlus; 2295 CircleTimes; 2297"),
  ("Cl", "ClockwiseContourIntegral; 2232 CloseCurlyDoubleQuote; 201d CloseCurlyQuote; 2019"),
  ("Co", "Colon; 2237 Colone; 2a74 Congruent; 2261 Conint; 222f ContourIntegral; 222e Copf; 2102"),
  ("Co", "Coproduct; 2210 CounterClockwiseContourIntegral; 2233"),
  ("Cr", "Cross; 2a2f"),
  ("Cs", "Cscr; 1d49e"),
  ("Cu", "Cup; 22d3 CupCap; 224d"),
  ("DD", "DD; 2145 DDotrahd; 2911"),
  ("DJ", "DJcy; 402"),
  ("DS", "DScy; 405"),
  ("DZ", "DZcy; 40f"),
  ("Da", "Dagger; 2021 Darr; 21a1 Dashv; 2ae4"),
  ("Dc", "Dcaron; 10e Dcy; 414"),
  ("De", "Del; 2207 Delta; 394"),
  ("Df", "Dfr; 1d507"),
  ("Di", "DiacriticalAcute; b4 DiacriticalDot; 2d9 DiacriticalDoubleAcute; 2dd"),
  ("Di", "DiacriticalGrave; 60 DiacriticalTilde; 2dc Diamond; 22c4 DifferentialD; 2146"),
  ("Do", "Dopf; 1d53b Dot; a8 DotDot; 20dc DotEqual; 2250 DoubleContourIntegral; 222f"),
  ("Do", "DoubleDot; a8 DoubleDownArrow; 21d3 DoubleLeftArrow; 21d0 DoubleLeftRightArrow; 21d4"),
  ("Do", "DoubleLeftTee; 2ae4 DoubleLongLeftArrow; 27f8 DoubleLongLeftRightArrow; 27fa"),
  ("Do", "DoubleLongRightArrow; 27f9 DoubleRightArrow; 21d2 DoubleRightTee; 22a8"),
  ("Do", "DoubleUpArrow; 21d1 DoubleUpDownArrow; 21d5 DoubleVerticalBar; 2225 DownArrow; 2193"),
  ("Do", "DownArrowBar; 2913 DownArrowUpArrow; 21f5 DownBreve; 311 DownLeftRightVector; 2950"),
  ("Do", "DownLeftTeeVector; 295e DownLeftVector; 21bd DownLeftVectorBar; 2956"),
  ("Do", "DownRightTeeVector; 295f DownRightVector; 21c1 DownRightVectorBar; 2957 DownTee; 22a4"),
  ("Do", "DownTeeArrow; 21a7 Downarrow; 21d3"),
  ("Ds", "Dscr; 1d49f Dstrok; 110"),
  ("EN", "ENG; 14a"),
  ("ET", "ETH d0 ETH; d0"),
  ("Ea", "Eacute c9 Eacute; c9"),
  ("Ec", "Ecaron; 11a Ecirc ca Ecirc; ca Ecy; 42d"),
  ("Ed", "Edot; 116"),
  ("Ef", "Efr; 1d508"),
  ("Eg", "Egrave c8 Egrave; c8"),
  ("El", "Element; 2208"),
  ("Em", "Emacr; 112 EmptySmallSquare; 25fb EmptyVerySmallSquare; 25ab"),
  ("Eo", "Eogon; 118 Eopf; 1d53c"),
  ("Ep", "Epsilon; 395"),
  ("Eq", "Equal; 2a75 EqualTilde; 2242 Equilibrium; 21cc"),
  ("Es", "Escr; 2130 Esim; 2a73"),
  ("Et", "Eta; 397"),
  ("Eu", "Euml cb Euml; cb"),
  ("Ex", "Exists; 2203 ExponentialE; 2147"),
  ("Fc", "Fcy; 424"),
  ("Ff", "Ffr; 1d509"),
  ("Fi", "FilledSmallSquare; 25fc FilledVerySmallSquare; 25aa"),
  ("Fo", "Fopf; 1d53d ForAll; 2200 Fouriertrf; 2131"),
  ("Fs", "Fscr; 2131"),
  ("GJ", "GJcy; 403"),
  ("GT", "GT 3e GT; 3e"),
  ("Ga", "Gamma; 393 Gammad; 3dc"),
  ("Gb", "Gbreve; 11e"),
  ("Gc", "Gcedil; 122 Gcirc; 11c Gcy; 413"),
  ("Gd", "Gdot; 120"),
  ("Gf", "Gfr; 1d50a"),
  ("Gg", "Gg; 22d9"),
  ("Go", "Gopf; 1d53e"),
  ("Gr", "GreaterEqual; 2265 GreaterEqualLess; 22db GreaterFullEqual; 2267 GreaterGreater; 2aa2"),
  ("Gr", "GreaterLess; 2277 GreaterSlantEqual; 2a7e GreaterTilde; 2273"),
  ("Gs", "Gscr; 1d4a2"),
  ("Gt", "Gt; 226b"),
  ("HA", "HARDcy; 42a"),
  ("Ha", "Hacek; 2c7 Hat; 5e"),
  ("Hc", "Hcirc; 124"),
  ("Hf", "Hfr; 210c"),
  ("Hi", "HilbertSpace; 210b"),
  ("Ho", "Hopf; 210d HorizontalLine; 2500"),
  ("Hs", "Hscr; 210b Hstrok; 126"),
  ("Hu", "HumpDownHump; 224e HumpEqual; 224f"),
  ("IE", "IEcy; 415"),
  ("IJ", "IJlig; 132"),
  ("IO", "IOcy; 401"),
  ("Ia", "Iacute cd Iacute; cd"),
  ("Ic", "Icirc ce Icirc; ce Icy; 418"),
  ("Id", "Idot; 130"),
  ("If", "Ifr; 2111"),
  ("Ig", "Igrave cc Igrave; cc"),
  ("Im", "Im; 2111 Imacr; 12a ImaginaryI; 2148 Implies; 21d2"),
  ("In", "Int; 222c Integral; 222b Intersection; 22c2 InvisibleComma; 2063 InvisibleTimes; 2062"),
  ("Io", "Iogon; 12e Iopf; 1d540 Iota; 399"),
  ("Is", "Iscr; 2110"),
  ("It", "Itilde; 128"),
  ("Iu", "Iukcy; 406 Iuml cf Iuml; cf"),
  ("Jc", "Jcirc; 134 Jcy; 419"),
  ("Jf", "Jfr; 1d50d"),
  ("Jo", "Jopf; 1d541"),
  ("Js", "Jscr; 1d4a5 Jsercy; 408"),
  ("Ju", "Jukcy; 404"),
  ("KH", "KHcy; 425"),
  ("KJ", "KJcy; 40c"),
  ("Ka", "Kappa; 39a"),
  ("Kc", "Kcedil; 136 Kcy; 41a"),
  ("Kf", "Kfr; 1d50e"),
  ("Ko", "Kopf; 1d542"),
  ("Ks", "Kscr; 1d4a6"),
  ("LJ", "LJcy; 409"),
  ("LT", "LT 3c LT; 3c"),
  ("La", "Lacute; 139 Lambda; 39b Lang; 27ea Laplacetrf; 2112 Larr; 219e"),
  ("Lc", "Lcaron; 13d Lcedil; 13b Lcy; 41b"),
  ("Le", "LeftAngleBracket; 27e8 LeftArrow; 2190 LeftArrowBar; 21e4 LeftArrowRightArrow; 21c6"),
  ("Le", "LeftCeiling; 2308 LeftDoubleBracket; 27e6 LeftDownTeeVector; 2961 LeftDownVector; 21c3"),
  ("Le", "LeftDownVectorBar; 2959 LeftFloor; 230a LeftRightArrow; 2194 LeftRightVector; 294e"),
  ("Le", "LeftTee; 22a3 LeftTeeArrow; 21a4 LeftTeeVector; 295a LeftTriangle; 22b2"),
  ("Le", "LeftTriangleBar; 29cf LeftTriangleEqual; 22b4 LeftUpDownVector; 2951"),
  ("Le", "LeftUpTeeVector; 2960 LeftUpVector; 21bf LeftUpVectorBar; 2958 LeftVector; 21bc"),
  ("Le", "LeftVectorBar; 2952 Leftarrow; 21d0 Leftrightarrow; 21d4 LessEqualGreater; 22da"),
  ("Le", "LessFullEqual; 2266 LessGreater; 2276 LessLess; 2aa1 LessSlantEqual; 2a7d"),
  ("Le", "LessTilde; 2272"),
  ("Lf", "Lfr; 1d50f"),
  ("Ll", "Ll; 22d8 Lleftarrow; 21da"),
  ("Lm", "Lmidot; 13f"),
  ("Lo", "LongLeftArrow; 27f5 LongLeftRightArrow; 27f7 LongRightArrow; 27f6 Longleftarrow; 27f8"),
  ("Lo", "Longleftrightarrow; 27fa Longrightarrow; 27f9 Lopf; 1d543 LowerLeftArrow; 2199"),
  ("Lo", "LowerRightArrow; 2198"),
  ("Ls", "Lscr; 2112 Lsh; 21b0 Lstrok; 141"),
  ("Lt", "Lt; 226a"),
  ("Ma", "Map; 2905"),
  ("Mc", "Mcy; 41c"),
  ("Me", "MediumSpace; 205f Mellintrf; 2133"),
  ("Mf", "Mfr; 1d510"),
  ("Mi", "MinusPlus; 2213"),
  ("Mo", "Mopf; 1d544"),
  ("Ms", "Mscr; 2133"),
  ("Mu", "Mu; 39c"),
  ("NJ", "NJcy; 40a"),
  ("Na", "Nacute; 143"),
  ("Nc", "Ncaron; 147 Ncedil; 145 Ncy; 41d"),
  ("Ne", "NegativeMediumSpace; 200b NegativeThickSpace; 200b NegativeThinSpace; 200b"),
  ("Ne", "NegativeVeryThinSpace; 200b NestedGreaterGreater; 226b NestedLessLess; 226a NewLine; a"),
  ("Nf", "Nfr; 1d511"),
  ("No", "NoBreak; 2060 NonBreakingSpace; a0 Nopf; 2115 Not; 2aec NotCongruent; 2262"),
  ("No", "NotCupCap; 226d NotDoubleVerticalBar; 2226 NotElement; 2209 NotEqual; 2260"),
  ("No", "NotEqualTilde; 2242+338 NotExists; 2204 NotGreater; 226f NotGreaterEqual; 2271"),
  ("No", "NotGreaterFullEqual; 2267+338 NotGreaterGreater; 226b+338 NotGreaterLess; 2279"),
  ("No", "NotGreaterSlantEqual; 2a7e+338 NotGreaterTilde; 2275 NotHumpDownHump; 224e+338"),
  ("No", "NotHumpEqual; 224f+338 NotLeftTriangle; 22ea NotLeftTriangleBar; 29cf+338"),
  ("No", "NotLeftTriangleEqual; 22ec NotLess; 226e NotLessEqual; 2270 NotLessGreater; 2278"),
  ("No", "NotLessLess; 226a+338 NotLessSlantEqual; 2a7d+338 NotLessTilde; 2274"),
  ("No", "NotNestedGreaterGreater; 2aa2+338 NotNestedLessLess; 2aa1+338 NotPrecedes; 2280"),
  ("No", "NotPrecedesEqual; 2aaf+338 NotPrecedesSlantEqual; 22e0 NotReverseElement; 220c"),
  ("No", "NotRightTriangle; 22eb NotRightTriangleBar; 29d0+338 NotRightTriangleEqual; 22ed"),
  ("No", "NotSquareSubset; 228f+338 NotSquareSubsetEqual; 22e2 NotSquareSuperset; 2290+338"),
  ("No", "NotSquareSupersetEqual; 22e3 NotSubset; 2282+20d2 NotSubsetEqual; 2288"),
  ("No", "NotSucceeds; 2281 NotSucceedsEqual; 2ab0+338 NotSucceedsSlantEqual; 22e1"),
  ("No", "NotSucceedsTilde; 227f+338 NotSuperset; 2283+20d2 NotSupersetEqual; 2289"),
  ("No", "NotTilde; 2241 NotTildeEqual; 2244 NotTildeFullEqual; 2247 NotTildeTilde; 2249"),
  ("No", "NotVerticalBar; 2224"),
  ("Ns", "Nscr; 1d4a9"),
  ("Nt", "Ntilde d1 Ntilde; d1"),
  ("Nu", "Nu; 39d"),
  ("OE", "OElig; 152"),
  ("Oa", "Oacute d3 Oacute; d3"),
  ("Oc", "Ocirc d4 Ocirc; d4 Ocy; 41e"),
  ("Od", "Odblac; 150"),
  ("Of", "Ofr; 1d512"),
  ("Og", "Ograve d2 Ograve; d2"),
  ("Om", "Omacr; 14c Omega; 3a9 Omicron; 39f"),
  ("Oo", "Oopf; 1d546"),
  ("Op", "OpenCurlyDoubleQuote; 201c OpenCurlyQuote; 2018"),
  ("Or", "Or; 2a54"),
  ("Os", "Oscr; 1d4aa Oslash d8 Oslash; d8"),
  ("Ot", "Otilde d5 Otilde; d5 Otimes; 2a37"),
  ("Ou", "Ouml d6 Ouml; d6"),
  ("Ov", "OverBar; 203e OverBrace; 23de OverBracket; 23b4 OverParenthesis; 23dc"),
  ("Pa", "PartialD; 2202"),
  ("Pc", "Pcy; 41f"),
  ("Pf", "Pfr; 1d513"),
  ("Ph", "Phi; 3a6"),
  ("Pi", "Pi; 3a0"),
  ("Pl", "PlusMinus; b1"),
  ("Po", "Poincareplane; 210c Popf; 2119"),
  ("Pr", "Pr; 2abb Precedes; 227a PrecedesEqual; 2aaf PrecedesSlantEqual; 227c"),
  ("Pr", "PrecedesTilde; 227e Prime; 2033 Product; 220f Proportion; 2237 Proportional; 221d"),
  ("Ps", "Pscr; 1d4ab Psi; 3a8"),
  ("QU", "QUOT 22 QUOT; 22"),
  ("Qf", "Qfr; 1d514"),
  ("Qo", "Qopf; 211a"),
  ("Qs", "Qscr; 1d4ac"),
  ("RB", "RBarr; 2910"),
  ("RE", "REG ae REG; ae"),
  ("Ra", "Racute; 154 Rang; 27eb Rarr; 21a0 Rarrtl; 2916"),
  ("Rc", "Rcaron; 158 Rcedil; 156 Rcy; 420"),
  ("Re", "Re; 211c ReverseElement; 220b ReverseEquilibrium; 21cb ReverseUpEquilibrium; 296f"),
  ("Rf", "Rfr; 211c"),
  ("Rh", "Rho; 3a1"),
  ("Ri", "RightAngleBracket; 27e9 RightArrow; 2192 RightArrowBar; 21e5 RightArrowLeftArrow; 21c4"),
  ("Ri", "RightCeiling; 2309 RightDoubleBracket; 27e7 RightDownTeeVector; 295d"),
  ("Ri", "RightDownVector; 21c2 RightDownVectorBar; 2955 RightFloor; 230b RightTee; 22a2"),
  ("Ri", "RightTeeArrow; 21a6 RightTeeVector; 295b RightTriangle; 22b3 RightTriangleBar; 29d0"),
  ("Ri", "RightTriangleEqual; 22b5 RightUpDownVector; 294f RightUpTeeVector; 295c"),
  ("Ri", "RightUpVector; 21be RightUpVectorBar; 2954 RightVector; 21c0 RightVectorBar; 2953"),
  ("Ri", "Rightarrow; 21d2"),
  ("Ro", "Ropf; 211d RoundImplies; 2970"),
  ("Rr", "Rrightarrow; 21db"),
  ("Rs", "Rscr; 211b Rsh; 21b1"),
  ("Ru", "RuleDelayed; 29f4"),
  ("SH", "SHCHcy; 429 SHcy; 428"),
  ("SO", "SOFTcy; 42c"),
  ("Sa", "Sacute; 15a"),
  ("Sc", "Sc; 2abc Scaron; 160 Scedil; 15e Scirc; 15c Scy; 421"),
  ("Sf", "Sfr; 1d516"),
  ("Sh", "ShortDownArrow; 2193 ShortLeftArrow; 2190 ShortRightArrow; 2192 ShortUpArrow; 2191"),
  ("Si", "Sigma; 3a3"),
  ("Sm", "SmallCircle; 2218"),
  ("So", "Sopf; 1d54a"),
  ("Sq", "Sqrt; 221a Square; 25a1 SquareIntersection; 2293 SquareSubset; 228f"),
  ("Sq", "SquareSubsetEqual; 2291 SquareSuperset; 2290 SquareSupersetEqual; 2292"),
  ("Sq", "SquareUnion; 2294"),
  ("Ss", "Sscr; 1d4ae"),
  ("St", "Star; 22c6"),
  ("Su", "Sub; 22d0 Subset; 22d0 SubsetEqual; 2286 Succeeds; 227b SucceedsEqual; 2ab0"),
  ("Su", "SucceedsSlantEqual; 227d SucceedsTilde; 227f SuchThat; 220b Sum; 2211 Sup; 22d1"),
  ("Su", "Superset; 2283 SupersetEqual; 2287 Supset; 22d1"),
  ("TH", "THORN de THORN; de"),
  ("TR", "TRADE; 2122"),
  ("TS", "TSHcy; 40b TScy; 426"),
  ("Ta", "Tab; 9 Tau; 3a4"),
  ("Tc", "Tcaron; 164 Tcedil; 162 Tcy; 422"),
  ("Tf", "Tfr; 1d517"),
  ("Th", "Therefore; 2234 Theta; 398 ThickSpace; 205f+200a ThinSpace; 2009"),
  ("Ti", "Tilde; 223c TildeEqual; 2243 TildeFullEqual; 2245 TildeTilde; 2248"),
  ("To", "Topf; 1d54b"),
  ("Tr", "TripleDot; 20db"),
  ("Ts", "Tscr; 1d4af Tstrok; 166"),
  ("Ua", "Uacute da Uacute; da Uarr; 219f Uarrocir; 2949"),
  ("Ub", "Ubrcy; 40e Ubreve; 16c"),
  ("Uc", "Ucirc db Ucirc; db Ucy; 423"),
  ("Ud", "Udblac; 170"),
  ("Uf", "Ufr; 1d518"),
  ("Ug", "Ugrave d9 Ugrave; d9"),
  ("Um", "Umacr; 16a"),
  ("Un", "UnderBar; 5f UnderBrace; 23df UnderBracket; 23b5 UnderParenthesis; 23dd Union; 22c3"),
  ("Un", "UnionPlus; 228e"),
  ("Uo", "Uogon; 172 Uopf; 1d54c"),
  ("Up", "UpArrow; 2191 UpArrowBar; 2912 UpArrowDownArrow; 21c5 UpDownArrow; 2195"),
  ("Up", "UpEquilibrium; 296e UpTee; 22a5 UpTeeArrow; 21a5 Uparrow; 21d1 Updownarrow; 21d5"),
  ("Up", "UpperLeftArrow; 2196 UpperRightArrow; 2197 Upsi; 3d2 Upsilon; 3a5"),
  ("Ur", "Uring; 16e"),
  ("Us", "Uscr; 1d4b0"),
  ("Ut", "Utilde; 168"),
  ("Uu", "Uuml dc Uuml; dc"),
  ("VD", "VDash; 22ab"),
  ("Vb", "Vbar; 2aeb"),
  ("Vc", "Vcy; 412"),
  ("Vd", "Vdash; 22a9 Vdashl; 2ae6"),
  ("Ve", "Vee; 22c1 Verbar; 2016 Vert; 2016 VerticalBar; 2223 VerticalLine; 7c"),
  ("Ve", "VerticalSeparator; 2758 VerticalTilde; 2240 VeryThinSpace; 200a"),
  ("Vf", "Vfr; 1d519"),
  ("Vo", "Vopf; 1d54d"),
  ("Vs", "Vscr; 1d4b1"),
  ("Vv", "Vvdash; 22aa"),
  ("Wc", "Wcirc; 174"),
  ("We", "Wedge; 22c0"),
  ("Wf", "Wfr; 1d51a"),
  ("Wo", "Wopf; 1d54e"),
  ("Ws", "Wscr; 1d4b2"),
  ("Xf", "Xfr; 1d51b"),
  ("Xi", "Xi; 39e"),
  ("Xo", "Xopf; 1d54f"),
  ("Xs", "Xscr; 1d4b3"),
  ("YA", "YAcy; 42f"),
  ("YI", "YIcy; 407"),
  ("YU", "YUcy; 42e"),
  ("Ya", "Yacute dd Yacute; dd"),
  ("Yc", "Ycirc; 176 Ycy; 42b"),
  ("Yf", "Yfr; 1d51c"),
  ("Yo", "Yopf; 1d550"),
  ("Ys", "Yscr; 1d4b4"),
  ("Yu", "Yuml; 178"),
  ("ZH", "ZHcy; 416"),
  ("Za", "Zacute; 179"),
  ("Zc", "Zcaron; 17d Zcy; 417"),
  ("Zd", "Zdot; 17b"),
  ("Ze", "ZeroWidthSpace; 200b Zeta; 396"),
  ("Zf", "Zfr; 2128"),
  ("Zo", "Zopf; 2124"),
  ("Zs", "Zscr; 1d4b5"),
  ("aa", "aacute e1 aacute; e1"),
  ("ab", "abreve; 103"),
  ("ac", "ac; 223e acE; 223e+333 acd; 223f acirc e2 acirc; e2 acute b4 acute; b4 acy; 430"),
  ("ae", "aelig e6 aelig; e6"),
  ("af", "af; 2061 afr; 1d51e"),
  ("ag", "agrave e0 agrave; e0"),
  ("al", "alefsym; 2135 aleph; 2135 alpha; 3b1"),
  ("am", "amacr; 101 amalg; 2a3f amp 26 amp; 26"),
  ("an", "and; 2227 andand; 2a55 andd; 2a5c andslope; 2a58 andv; 2a5a ang; 2220 ange; 29a4"),
  ("an", "angle; 2220 angmsd; 2221 angmsdaa; 29a8 angmsdab; 29a9 angmsdac; 29aa angmsdad; 29ab"),
  ("an", "angmsdae; 29ac angmsdaf; 29ad angmsdag; 29ae angmsdah; 29af angrt; 221f angrtvb; 22be"),
  ("an", "angrtvbd; 299d angsph; 2222 angst; c5 angzarr; 237c"),
  ("ao", "aogon; 105 aopf; 1d552"),
  ("ap", "ap; 2248 apE; 2a70 apacir; 2a6f ape; 224a apid; 224b apos; 27 approx; 2248"),
  ("ap", "approxeq; 224a"),
  ("ar", "aring e5 aring; e5"),
  ("as", "ascr; 1d4b6 ast; 2a asymp; 2248 asympeq; 224d"),
  ("at", "atilde e3 atilde; e3"),
  ("au", "auml e4 auml; e4"),
  ("aw", "awconint; 2233 awint; 2a11"),
  ("bN", "bNot; 2aed"),
  ("ba", "backcong; 224c backepsilon; 3f6 backprime; 2035 backsim; 223d backsimeq; 22cd"),
  ("ba", "barvee; 22bd barwed; 2305 barwedge; 2305"),
  ("bb", "bbrk; 23b5 bbrktbrk; 23b6"),
  ("bc", "bcong; 224c bcy; 431"),
  ("bd", "bdquo; 201e"),
  ("be", "becaus; 2235 because; 2235 bemptyv; 29b0 bepsi; 3f6 bernou; 212c beta; 3b2 beth; 2136"),
  ("be", "between; 226c"),
  ("bf", "bfr; 1d51f"),
  ("bi", "bigcap; 22c2 bigcirc; 25ef bigcup; 22c3 bigodot; 2a00 bigoplus; 2a01 bigotimes; 2a02"),
  ("bi", "bigsqcup; 2a06 bigstar; 2605 bigtriangledown; 25bd bigtriangleup; 25b3 biguplus; 2a04"),
  ("bi", "bigvee; 22c1 bigwedge; 22c0"),
  ("bk", "bkarow; 290d"),
  ("bl", "blacklozenge; 29eb blacksquare; 25aa blacktriangle; 25b4 blacktriangledown; 25be"),
  ("bl", "blacktriangleleft; 25c2 blacktriangleright; 25b8 blank; 2423 blk12; 2592 blk14; 2591"),
  ("bl", "blk34; 2593 block; 2588"),
  ("bn", "bne; 3d+20e5 bnequiv; 2261+20e5 bnot; 2310"),
  ("bo", "bopf; 1d553 bot; 22a5 bottom; 22a5 bowtie; 22c8 boxDL; 2557 boxDR; 2554 boxDl; 2556"),
  ("bo", "boxDr; 2553 boxH; 2550 boxHD; 2566 boxHU; 2569 boxHd; 2564 boxHu; 2567 boxUL; 255d"),
  ("bo", "boxUR; 255a boxUl; 255c boxUr; 2559 boxV; 2551 boxVH; 256c boxVL; 2563 boxVR; 2560"),
  ("bo", "boxVh; 256b boxVl; 2562 boxVr; 255f boxbox; 29c9 boxdL; 2555 boxdR; 2552 boxdl; 2510"),
  ("bo", "boxdr; 250c boxh; 2500 boxhD; 2565 boxhU; 2568 boxhd; 252c boxhu; 2534 boxminus; 229f"),
  ("bo", "boxplus; 229e boxtimes; 22a0 boxuL; 255b boxuR; 2558 boxul; 2518 boxur; 2514"),
  ("bo", "boxv; 2502 boxvH; 256a boxvL; 2561 boxvR; 255e boxvh; 253c boxvl; 2524 boxvr; 251c"),
  ("bp", "bprime; 2035"),
  ("br", "breve; 2d8 brvbar a6 brvbar; a6"),
  ("bs", "bscr; 1d4b7 bsemi; 204f bsim; 223d bsime; 22cd bsol; 5c bsolb; 29c5 bsolhsub; 27c8"),
  ("bu", "bull; 2022 bullet; 2022 bump; 224e bumpE; 2aae bumpe; 224f bumpeq; 224f"),
  ("ca", "cacute; 107 cap; 2229 capand; 2a44 capbrcup; 2a49 capcap; 2a4b capcup; 2a47"),
  ("ca", "capdot; 2a40 caps; 2229+fe00 caret; 2041 caron; 2c7"),
  ("cc", "ccaps; 2a4d ccaron; 10d ccedil e7 ccedil; e7 ccirc; 109 ccups; 2a4c ccupssm; 2a50"),
  ("cd", "cdot; 10b"),
  ("ce", "cedil b8 cedil; b8 cemptyv; 29b2 cent a2 cent; a2 centerdot; b7"),
  ("cf", "cfr; 1d520"),
  ("ch", "chcy; 447 check; 2713 checkmark; 2713 chi; 3c7"),
  ("ci", "cir; 25cb cirE; 29c3 circ; 2c6 circeq; 2257 circlearrowleft; 21ba"),
  ("ci", "circlearrowright; 21bb circledR; ae circledS; 24c8 circledast; 229b circledcirc; 229a"),
  ("ci", "circleddash; 229d cire; 2257 cirfnint; 2a10 cirmid; 2aef cirscir; 29c2"),
  ("cl", "clubs; 2663 clubsuit; 2663"),
  ("co", "colon; 3a colone; 2254 coloneq; 2254 comma; 2c commat; 40 comp; 2201 compfn; 2218"),
  ("co", "complement; 2201 complexes; 2102 cong; 2245 congdot; 2a6d conint; 222e copf; 1d554"),
  ("co", "coprod; 2210 copy a9 copy; a9 copysr; 2117"),
  ("cr", "crarr; 21b5 cross; 2717"),
  ("cs", "cscr; 1d4b8 csub; 2acf csube; 2ad1 csup; 2ad0 csupe; 2ad2"),
  ("ct", "ctdot; 22ef"),
  ("cu", "cudarrl; 2938 cudarrr; 2935 cuepr; 22de cuesc; 22df cularr; 21b6 cularrp; 293d"),
  ("cu", "cup; 222a cupbrcap; 2a48 cupcap; 2a46 cupcup; 2a4a cupdot; 228d cupor; 2a45"),
  ("cu", "cups; 222a+fe00 curarr; 21b7 curarrm; 293c curlyeqprec; 22de curlyeqsucc; 22df"),
  ("cu", "curlyvee; 22ce curlywedge; 22cf curren a4 curren; a4 curvearrowleft; 21b6"),
  ("cu", "curvearrowright; 21b7 cuvee; 22ce cuwed; 22cf"),
  ("cw", "cwconint; 2232 cwint; 2231"),
  ("cy", "cylcty; 232d"),
  ("dA", "dArr; 21d3"),
  ("dH", "dHar; 2965"),
  ("da", "dagger; 2020 daleth; 2138 darr; 2193 dash; 2010 dashv; 22a3"),
  ("db", "dbkarow; 290f dblac; 2dd"),
  ("dc", "dcaron; 10f dcy; 434"),
  ("dd", "dd; 2146 ddagger; 2021 ddarr; 21ca ddotseq; 2a77"),
  ("de", "deg b0 deg; b0 delta; 3b4 demptyv; 29b1"),
  ("df", "dfisht; 297f dfr; 1d521"),
  ("dh", "dharl; 21c3 dharr; 21c2"),
  ("di", "diam; 22c4 diamond; 22c4 diamondsuit; 2666 diams; 2666 die; a8 digamma; 3dd"),
  ("di", "disin; 22f2 div; f7 divide f7 divide; f7 divideontimes; 22c7 divonx; 22c7"),
  ("dj", "djcy; 452"),
  ("dl", "dlcorn; 231e dlcrop; 230d"),
  ("do", "dollar; 24 dopf; 1d555 dot; 2d9 doteq; 2250 doteqdot; 2251 dotminus; 2238"),
  ("do", "dotplus; 2214 dotsquare; 22a1 doublebarwedge; 2306 downarrow; 2193"),
  ("do", "downdownarrows; 21ca downharpoonleft; 21c3 downharpoonright; 21c2"),
  ("dr", "drbkarow; 2910 drcorn; 231f drcrop; 230c"),
  ("ds", "dscr; 1d4b9 dscy; 455 dsol; 29f6 dstrok; 111"),
  ("dt", "dtdot; 22f1 dtri; 25bf dtrif; 25be"),
  ("du", "duarr; 21f5 duhar; 296f"),
  ("dw", "dwangle; 29a6"),
  ("dz", "dzcy; 45f dzigrarr; 27ff"),
  ("eD", "eDDot; 2a77 eDot; 2251"),
  ("ea", "eacute e9 eacute; e9 easter; 2a6e"),
  ("ec", "ecaron; 11b ecir; 2256 ecirc ea ecirc; ea ecolon; 2255 ecy; 44d"),
  ("ed", "edot; 117"),
  ("ee", "ee; 2147"),
  ("ef", "efDot; 2252 efr; 1d522"),
  ("eg", "eg; 2a9a egrave e8 egrave; e8 egs; 2a96 egsdot; 2a98"),
  ("el", "el; 2a99 elinters; 23e7 ell; 2113 els; 2a95 elsdot; 2a97"),
  ("em", "emacr; 113 empty; 2205 emptyset; 2205 emptyv; 2205 emsp13; 2004 emsp14; 2005"),
  ("em", "emsp; 2003"),
  ("en", "eng; 14b ensp; 2002"),
  ("eo", "eogon; 119 eopf; 1d556"),
  ("ep", "epar; 22d5 eparsl; 29e3 eplus; 2a71 epsi; 3b5 epsilon; 3b5 epsiv; 3f5"),
  ("eq", "eqcirc; 2256 eqcolon; 2255 eqsim; 2242 eqslantgtr; 2a96 eqslantless; 2a95 equals; 3d"),
  ("eq", "equest; 225f equiv; 2261 equivDD; 2a78 eqvparsl; 29e5"),
  ("er", "erDot; 2253 erarr; 2971"),
  ("es", "escr; 212f esdot; 2250 esim; 2242"),
  ("et", "eta; 3b7 eth f0 eth; f0"),
  ("eu", "euml eb euml; eb euro; 20ac"),
  ("ex", "excl; 21 exist; 2203 expectation; 2130 exponentiale; 2147"),
  ("fa", "fallingdotseq; 2252"),
  ("fc", "fcy; 444"),
  ("fe", "female; 2640"),
  ("ff", "ffilig; fb03 fflig; fb00 ffllig; fb04 ffr; 1d523"),
  ("fi", "filig; fb01"),
  ("fj", "fjlig; 66+6a"),
  ("fl", "flat; 266d fllig; fb02 fltns; 25b1"),
  ("fn", "fnof; 192"),
  ("fo", "fopf; 1d557 forall; 2200 fork; 22d4 forkv; 2ad9"),
  ("fp", "fpartint; 2a0d"),
  ("fr", "frac12 bd frac12; bd frac13; 2153 frac14 bc frac14; bc frac15; 2155 frac16; 2159"),
  ("fr", "frac18; 215b frac23; 2154 frac25; 2156 frac34 be frac34; be frac35; 2157 frac38; 215c"),
  ("fr", "frac45; 2158 frac56; 215a frac58; 215d frac78; 215e frasl; 2044 frown; 2322"),
  ("fs", "fscr; 1d4bb"),
  ("gE", "gE; 2267 gEl; 2a8c"),
  ("ga", "gacute; 1f5 gamma; 3b3 gammad; 3dd gap; 2a86"),
  ("gb", "gbreve; 11f"),
  ("gc", "gcirc; 11d gcy; 433"),
  ("gd", "gdot; 121"),
  ("ge", "ge; 2265 gel; 22db geq; 2265 geqq; 2267 geqslant; 2a7e ges; 2a7e gescc; 2aa9"),
  ("ge", "gesdot; 2a80 gesdoto; 2a82 gesdotol; 2a84 gesl; 22db+fe00 gesles; 2a94"),
  ("gf", "gfr; 1d524"),
  ("gg", "gg; 226b ggg; 22d9"),
  ("gi", "gimel; 2137"),
  ("gj", "gjcy; 453"),
  ("gl", "gl; 2277 glE; 2a92 gla; 2aa5 glj; 2aa4"),
  ("gn", "gnE; 2269 gnap; 2a8a gnapprox; 2a8a gne; 2a88 gneq; 2a88 gneqq; 2269 gnsim; 22e7"),
  ("go", "gopf; 1d558"),
  ("gr", "grave; 60"),
  ("gs", "gscr; 210a gsim; 2273 gsime; 2a8e gsiml; 2a90"),
  ("gt", "gt 3e gt; 3e gtcc; 2aa7 gtcir; 2a7a gtdot; 22d7 gtlPar; 2995 gtquest; 2a7c"),
  ("gt", "gtrapprox; 2a86 gtrarr; 2978 gtrdot; 22d7 gtreqless; 22db gtreqqless; 2a8c"),
  ("gt", "gtrless; 2277 gtrsim; 2273"),
  ("gv", "gvertneqq; 2269+fe00 gvnE; 2269+fe00"),
  ("hA", "hArr; 21d4"),
  ("ha", "hairsp; 200a half; bd hamilt; 210b hardcy; 44a harr; 2194 harrcir; 2948 harrw; 21ad"),
  ("hb", "hbar; 210f"),
  ("hc", "hcirc; 125"),
  ("he", "hearts; 2665 heartsuit; 2665 hellip; 2026 hercon; 22b9"),
  ("hf", "hfr; 1d525"),
  ("hk", "hksearow; 2925 hkswarow; 2926"),
  ("ho", "hoarr; 21ff homtht; 223b hookleftarrow; 21a9 hookrightarrow; 21aa hopf; 1d559"),
  ("ho", "horbar; 2015"),
  ("hs", "hscr; 1d4bd hslash; 210f hstrok; 127"),
  ("hy", "hybull; 2043 hyphen; 2010"),
  ("ia", "iacute ed iacute; ed"),
  ("ic", "ic; 2063 icirc ee icirc; ee icy; 438"),
  ("ie", "iecy; 435 iexcl a1 iexcl; a1"),
  ("if", "iff; 21d4 ifr; 1d526"),
  ("ig", "igrave ec igrave; ec"),
  ("ii", "ii; 2148 iiiint; 2a0c iiint; 222d iinfin; 29dc iiota; 2129"),
  ("ij", "ijlig; 133"),
  ("im", "imacr; 12b image; 2111 imagline; 2110 imagpart; 2111 imath; 131 imof; 22b7 imped; 1b5"),
  ("in", "in; 2208 incare; 2105 infin; 221e infintie; 29dd inodot; 131 int; 222b intcal; 22ba"),
  ("in", "integers; 2124 intercal; 22ba intlarhk; 2a17 intprod; 2a3c"),
  ("io", "iocy; 451 iogon; 12f iopf; 1d55a iota; 3b9"),
  ("ip", "iprod; 2a3c"),
  ("iq", "iquest bf iquest; bf"),
  ("is", "iscr; 1d4be isin; 2208 isinE; 22f9 isindot; 22f5 isins; 22f4 isinsv; 22f3 isinv; 2208"),
  ("it", "it; 2062 itilde; 129"),
  ("iu", "iukcy; 456 iuml ef iuml; ef"),
  ("jc", "jcirc; 135 jcy; 439"),
  ("jf", "jfr; 1d527"),
  ("jm", "jmath; 237"),
  ("jo", "jopf; 1d55b"),
  ("js", "jscr; 1d4bf jsercy; 458"),
  ("ju", "jukcy; 454"),
  ("ka", "kappa; 3ba kappav; 3f0"),
  ("kc", "kcedil; 137 kcy; 43a"),
  ("kf", "kfr; 1d528"),
  ("kg", "kgreen; 138"),
  ("kh", "khcy; 445"),
  ("kj", "kjcy; 45c"),
  ("ko", "kopf; 1d55c"),
  ("ks", "kscr; 1d4c0"),
  ("lA", "lAarr; 21da lArr; 21d0 lAtail; 291b"),
  ("lB", "lBarr; 290e"),
  ("lE", "lE; 2266 lEg; 2a8b"),
  ("lH", "lHar; 2962"),
  ("la", "lacute; 13a laemptyv; 29b4 lagran; 2112 lambda; 3bb lang; 27e8 langd; 2991"),
  ("la", "langle; 27e8 lap; 2a85 laquo ab laquo; ab larr; 2190 larrb; 21e4 larrbfs; 291f"),
  ("la", "larrfs; 291d larrhk; 21a9 larrlp; 21ab larrpl; 2939 larrsim; 2973 larrtl; 21a2"),
  ("la", "lat; 2aab latail; 2919 late; 2aad lates; 2aad+fe00"),
  ("lb", "lbarr; 290c lbbrk; 2772 lbrace; 7b lbrack; 5b lbrke; 298b lbrksld; 298f lbrkslu; 298d"),
  ("lc", "lcaron; 13e lcedil; 13c lceil; 2308 lcub; 7b lcy; 43b"),
  ("ld", "ldca; 2936 ldquo; 201c ldquor; 201e ldrdhar; 2967 ldrushar; 294b ldsh; 21b2"),
  ("le", "le; 2264 leftarrow; 2190 leftarrowtail; 21a2 leftharpoondown; 21bd leftharpoonup; 21bc"),
  ("le", "leftleftarrows; 21c7 leftrightarrow; 2194 leftrightarrows; 21c6"),
  ("le", "leftrightharpoons; 21cb leftrightsquigarrow; 21ad leftthreetimes; 22cb leg; 22da"),
  ("le", "leq; 2264 leqq; 2266 leqslant; 2a7d les; 2a7d lescc; 2aa8 lesdot; 2a7f lesdoto; 2a81"),
  ("le", "lesdotor; 2a83 lesg; 22da+fe00 lesges; 2a93 lessapprox; 2a85 lessdot; 22d6"),
  ("le", "lesseqgtr; 22da lesseqqgtr; 2a8b lessgtr; 2276 lesssim; 2272"),
  ("lf", "lfisht; 297c lfloor; 230a lfr; 1d529"),
  ("lg", "lg; 2276 lgE; 2a91"),
  ("lh", "lhard; 21bd lharu; 21bc lharul; 296a lhblk; 2584"),
  ("lj", "ljcy; 459"),
  ("ll", "ll; 226a llarr; 21c7 llcorner; 231e llhard; 296b lltri; 25fa"),
  ("lm", "lmidot; 140 lmoust; 23b0 lmoustache; 23b0"),
  ("ln", "lnE; 2268 lnap; 2a89 lnapprox; 2a89 lne; 2a87 lneq; 2a87 lneqq; 2268 lnsim; 22e6"),
  ("lo", "loang; 27ec loarr; 21fd lobrk; 27e6 longleftarrow; 27f5 longleftrightarrow; 27f7"),
  ("lo", "longmapsto; 27fc longrightarrow; 27f6 looparrowleft; 21ab looparrowright; 21ac"),
  ("lo", "lopar; 2985 lopf; 1d55d loplus; 2a2d lotimes; 2a34 lowast; 2217 lowbar; 5f loz; 25ca"),
  ("lo", "lozenge; 25ca lozf; 29eb"),
  ("lp", "lpar; 28 lparlt; 2993"),
  ("lr", "lrarr; 21c6 lrcorner; 231f lrhar; 21cb lrhard; 296d lrm; 200e lrtri; 22bf"),
  ("ls", "lsaquo; 2039 lscr; 1d4c1 lsh; 21b0 lsim; 2272 lsime; 2a8d lsimg; 2a8f lsqb; 5b"),
  ("ls", "lsquo; 2018 lsquor; 201a lstrok; 142"),
  ("lt", "lt 3c lt; 3c ltcc; 2aa6 ltcir; 2a79 ltdot; 22d6 lthree; 22cb ltimes; 22c9 ltlarr; 2976"),
  ("lt", "ltquest; 2a7b ltrPar; 2996 ltri; 25c3 ltrie; 22b4 ltrif; 25c2"),
  ("lu", "lurdshar; 294a luruhar; 2966"),
  ("lv", "lvertneqq; 2268+fe00 lvnE; 2268+fe00"),
  ("mD", "mDDot; 223a"),
  ("ma", "macr af macr; af male; 2642 malt; 2720 maltese; 2720 map; 21a6 mapsto; 21a6"),
  ("ma", "mapstodown; 21a7 mapstoleft; 21a4 mapstoup; 21a5 marker; 25ae"),
  ("mc", "mcomma; 2a29 mcy; 43c"),
  ("md", "mdash; 2014"),
  ("me", "measuredangle; 2221"),
  ("mf", "mfr; 1d52a"),
  ("mh", "mho; 2127"),
  ("mi", "micro b5 micro; b5 mid; 2223 midast; 2a midcir; 2af0 middot b7 middot; b7 minus; 2212"),
  ("mi", "minusb; 229f minusd; 2238 minusdu; 2a2a"),
  ("ml", "mlcp; 2adb mldr; 2026"),
  ("mn", "mnplus; 2213"),
  ("mo", "models; 22a7 mopf; 1d55e"),
  ("mp", "mp; 2213"),
  ("ms", "mscr; 1d4c2 mstpos; 223e"),
  ("mu", "mu; 3bc multimap; 22b8 mumap; 22b8"),
  ("nG", "nGg; 22d9+338 nGt; 226b+20d2 nGtv; 226b+338"),
  ("nL", "nLeftarrow; 21cd nLeftrightarrow; 21ce nLl; 22d8+338 nLt; 226a+20d2 nLtv; 226a+338"),
  ("nR", "nRightarrow; 21cf"),
  ("nV", "nVDash; 22af nVdash; 22ae"),
  ("na", "nabla; 2207 nacute; 144 nang; 2220+20d2 nap; 2249 napE; 2a70+338 napid; 224b+338"),
  ("na", "napos; 149 napprox; 2249 natur; 266e natural; 266e naturals; 2115"),
  ("nb", "nbsp a0 nbsp; a0 nbump; 224e+338 nbumpe; 224f+338"),
  ("nc", "ncap; 2a43 ncaron; 148 ncedil; 146 ncong; 2247 ncongdot; 2a6d+338 ncup; 2a42 ncy; 43d"),
  ("nd", "ndash; 2013"),
  ("ne", "ne; 2260 neArr; 21d7 nearhk; 2924 nearr; 2197 nearrow; 2197 nedot; 2250+338"),
  ("ne", "nequiv; 2262 nesear; 2928 nesim; 2242+338 nexist; 2204 nexists; 2204"),
  ("nf", "nfr; 1d52b"),
  ("ng", "ngE; 2267+338 nge; 2271 ngeq; 2271 ngeqq; 2267+338 ngeqslant; 2a7e+338 nges; 2a7e+338"),
  ("ng", "ngsim; 2275 ngt; 226f ngtr; 226f"),
  ("nh", "nhArr; 21ce nharr; 21ae nhpar; 2af2"),
  ("ni", "ni; 220b nis; 22fc nisd; 22fa niv; 220b"),
  ("nj", "njcy; 45a"),
  ("nl", "nlArr; 21cd nlE; 2266+338 nlarr; 219a nldr; 2025 nle; 2270 nleftarrow; 219a"),
  ("nl", "nleftrightarrow; 21ae nleq; 2270 nleqq; 2266+338 nleqslant; 2a7d+338 nles; 2a7d+338"),
  ("nl", "nless; 226e nlsim; 2274 nlt; 226e nltri; 22ea nltrie; 22ec"),
  ("nm", "nmid; 2224"),
  ("no", "nopf; 1d55f not ac not; ac notin; 2209 notinE; 22f9+338 notindot; 22f5+338"),
  ("no", "notinva; 2209 notinvb; 22f7 notinvc; 22f6 notni; 220c notniva; 220c notnivb; 22fe"),
  ("no", "notnivc; 22fd"),
  ("np", "npar; 2226 nparallel; 2226 nparsl; 2afd+20e5 npart; 2202+338 npolint; 2a14 npr; 2280"),
  ("np", "nprcue; 22e0 npre; 2aaf+338 nprec; 2280 npreceq; 2aaf+338"),
  ("nr", "nrArr; 21cf nrarr; 219b nrarrc; 2933+338 nrarrw; 219d+338 nrightarrow; 219b"),
  ("nr", "nrtri; 22eb nrtrie; 22ed"),
  ("ns", "nsc; 2281 nsccue; 22e1 nsce; 2ab0+338 nscr; 1d4c3 nshortmid; 2224 nshortparallel; 2226"),
  ("ns", "nsim; 2241 nsime; 2244 nsimeq; 2244 nsmid; 2224 nspar; 2226 nsqsube; 22e2"),
  ("ns", "nsqsupe; 22e3 nsub; 2284 nsubE; 2ac5+338 nsube; 2288 nsubset; 2282+20d2"),
  ("ns", "nsubseteq; 2288 nsubseteqq; 2ac5+338 nsucc; 2281 nsucceq; 2ab0+338 nsup; 2285"),
  ("ns", "nsupE; 2ac6+338 nsupe; 2289 nsupset; 2283+20d2 nsupseteq; 2289 nsupseteqq; 2ac6+338"),
  ("nt", "ntgl; 2279 ntilde f1 ntilde; f1 ntlg; 2278 ntriangleleft; 22ea ntrianglelefteq; 22ec"),
  ("nt", "ntriangleright; 22eb ntrianglerighteq; 22ed"),
  ("nu", "nu; 3bd num; 23 numero; 2116 numsp; 2007"),
  ("nv", "nvDash; 22ad nvHarr; 2904 nvap; 224d+20d2 nvdash; 22ac nvge; 2265+20d2 nvgt; 3e+20d2"),
  ("nv", "nvinfin; 29de nvlArr; 2902 nvle; 2264+20d2 nvlt; 3c+20d2 nvltrie; 22b4+20d2"),
  ("nv", "nvrArr; 2903 nvrtrie; 22b5+20d2 nvsim; 223c+20d2"),
  ("nw", "nwArr; 21d6 nwarhk; 2923 nwarr; 2196 nwarrow; 2196 nwnear; 2927"),
  ("oS", "oS; 24c8"),
  ("oa", "oacute f3 oacute; f3 oast; 229b"),
  ("oc", "ocir; 229a ocirc f4 ocirc; f4 ocy; 43e"),
  ("od", "odash; 229d odblac; 151 odiv; 2a38 odot; 2299 odsold; 29bc"),
  ("oe", "oelig; 153"),
  ("of", "ofcir; 29bf ofr; 1d52c"),
  ("og", "ogon; 2db ograve f2 ograve; f2 ogt; 29c1"),
  ("oh", "ohbar; 29b5 ohm; 3a9"),
  ("oi", "oint; 222e"),
  ("ol", "olarr; 21ba olcir; 29be olcross; 29bb oline; 203e olt; 29c0"),
  ("om", "omacr; 14d omega; 3c9 omicron; 3bf omid; 29b6 ominus; 2296"),
  ("oo", "oopf; 1d560"),
  ("op", "opar; 29b7 operp; 29b9 oplus; 2295"),
  ("or", "or; 2228 orarr; 21bb ord; 2a5d order; 2134 orderof; 2134 ordf aa ordf; aa ordm ba"),
  ("or", "ordm; ba origof; 22b6 oror; 2a56 orslope; 2a57 orv; 2a5b"),
  ("os", "oscr; 2134 oslash f8 oslash; f8 osol; 2298"),
  ("ot", "otilde f5 otilde; f5 otimes; 2297 otimesas; 2a36"),
  ("ou", "ouml f6 ouml; f6"),
  ("ov", "ovbar; 233d"),
  ("pa", "par; 2225 para b6 para; b6 parallel; 2225 parsim; 2af3 parsl; 2afd part; 2202"),
  ("pc", "pcy; 43f"),
  ("pe", "percnt; 25 period; 2e permil; 2030 perp; 22a5 pertenk; 2031"),
  ("pf", "pfr; 1d52d"),
  ("ph", "phi; 3c6 phiv; 3d5 phmmat; 2133 phone; 260e"),
  ("pi", "pi; 3c0 pitchfork; 22d4 piv; 3d6"),
  ("pl", "planck; 210f planckh; 210e plankv; 210f plus; 2b plusacir; 2a23 plusb; 229e"),
  ("pl", "pluscir; 2a22 plusdo; 2214 plusdu; 2a25 pluse; 2a72 plusmn b1 plusmn; b1 plussim; 2a26"),
  ("pl", "plustwo; 2a27"),
  ("pm", "pm; b1"),
  ("po", "pointint; 2a15 popf; 1d561 pound a3 pound; a3"),
  ("pr", "pr; 227a prE; 2ab3 prap; 2ab7 prcue; 227c pre; 2aaf prec; 227a precapprox; 2ab7"),
  ("pr", "preccurlyeq; 227c preceq; 2aaf precnapprox; 2ab9 precneqq; 2ab5 precnsim; 22e8"),
  ("pr", "precsim; 227e prime; 2032 primes; 2119 prnE; 2ab5 prnap; 2ab9 prnsim; 22e8 prod; 220f"),
  ("pr", "profalar; 232e profline; 2312 profsurf; 2313 prop; 221d propto; 221d prsim; 227e"),
  ("pr", "prurel; 22b0"),
  ("ps", "pscr; 1d4c5 psi; 3c8"),
  ("pu", "puncsp; 2008"),
  ("qf", "qfr; 1d52e"),
  ("qi", "qint; 2a0c"),
  ("qo", "qopf; 1d562"),
  ("qp", "qprime; 2057"),
  ("qs", "qscr; 1d4c6"),
  ("qu", "quaternions; 210d quatint; 2a16 quest; 3f questeq; 225f quot 22 quot; 22"),
  ("rA", "rAarr; 21db rArr; 21d2 rAtail; 291c"),
  ("rB", "rBarr; 290f"),
  ("rH", "rHar; 2964"),
  ("ra", "race; 223d+331 racute; 155 radic; 221a raemptyv; 29b3 rang; 27e9 rangd; 2992"),
  ("ra", "range; 29a5 rangle; 27e9 raquo bb raquo; bb rarr; 2192 rarrap; 2975 rarrb; 21e5"),
  ("ra", "rarrbfs; 2920 rarrc; 2933 rarrfs; 291e rarrhk; 21aa rarrlp; 21ac rarrpl; 2945"),
  ("ra", "rarrsim; 2974 rarrtl; 21a3 rarrw; 219d ratail; 291a ratio; 2236 rationals; 211a"),
  ("rb", "rbarr; 290d rbbrk; 2773 rbrace; 7d rbrack; 5d rbrke; 298c rbrksld; 298e rbrkslu; 2990"),
  ("rc", "rcaron; 159 rcedil; 157 rceil; 2309 rcub; 7d rcy; 440"),
  ("rd", "rdca; 2937 rdldhar; 2969 rdquo; 201d rdquor; 201d rdsh; 21b3"),
  ("re", "real; 211c realine; 211b realpart; 211c reals; 211d rect; 25ad reg ae reg; ae"),
  ("rf", "rfisht; 297d rfloor; 230b rfr; 1d52f"),
  ("rh", "rhard; 21c1 rharu; 21c0 rharul; 296c rho; 3c1 rhov; 3f1"),
  ("ri", "rightarrow; 2192 rightarrowtail; 21a3 rightharpoondown; 21c1 rightharpoonup; 21c0"),
  ("ri", "rightleftarrows; 21c4 rightleftharpoons; 21cc rightrightarrows; 21c9"),
  ("ri", "rightsquigarrow; 219d rightthreetimes; 22cc ring; 2da risingdotseq; 2253"),
  ("rl", "rlarr; 21c4 rlhar; 21cc rlm; 200f"),
  ("rm", "rmoust; 23b1 rmoustache; 23b1"),
  ("rn", "rnmid; 2aee"),
  ("ro", "roang; 27ed roarr; 21fe robrk; 27e7 ropar; 2986 ropf; 1d563 roplus; 2a2e rotimes; 2a35"),
  ("rp", "rpar; 29 rpargt; 2994 rppolint; 2a12"),
  ("rr", "rrarr; 21c9"),
  ("rs", "rsaquo; 203a rscr; 1d4c7 rsh; 21b1 rsqb; 5d rsquo; 2019 rsquor; 2019"),
  ("rt", "rthree; 22cc rtimes; 22ca rtri; 25b9 rtrie; 22b5 rtrif; 25b8 rtriltri; 29ce"),
  ("ru", "ruluhar; 2968"),
  ("rx", "rx; 211e"),
  ("sa", "sacute; 15b"),
  ("sb", "sbquo; 201a"),
  ("sc", "sc; 227b scE; 2ab4 scap; 2ab8 scaron; 161 sccue; 227d sce; 2ab0 scedil; 15f scirc; 15d"),
  ("sc", "scnE; 2ab6 scnap; 2aba scnsim; 22e9 scpolint; 2a13 scsim; 227f scy; 441"),
  ("sd", "sdot; 22c5 sdotb; 22a1 sdote; 2a66"),
  ("se", "seArr; 21d8 searhk; 2925 searr; 2198 searrow; 2198 sect a7 sect; a7 semi; 3b"),
  ("se", "seswar; 2929 setminus; 2216 setmn; 2216 sext; 2736"),
  ("sf", "sfr; 1d530 sfrown; 2322"),
  ("sh", "sharp; 266f shchcy; 449 shcy; 448 shortmid; 2223 shortparallel; 2225 shy ad shy; ad"),
  ("si", "sigma; 3c3 sigmaf; 3c2 sigmav; 3c2 sim; 223c simdot; 2a6a sime; 2243 simeq; 2243"),
  ("si", "simg; 2a9e simgE; 2aa0 siml; 2a9d simlE; 2a9f simne; 2246 simplus; 2a24 simrarr; 2972"),
  ("sl", "slarr; 2190"),
  ("sm", "smallsetminus; 2216 smashp; 2a33 smeparsl; 29e4 smid; 2223 smile; 2323 smt; 2aaa"),
  ("sm", "smte; 2aac smtes; 2aac+fe00"),
  ("so", "softcy; 44c sol; 2f solb; 29c4 solbar; 233f sopf; 1d564"),
  ("sp", "spades; 2660 spadesuit; 2660 spar; 2225"),
  ("sq", "sqcap; 2293 sqcaps; 2293+fe00 sqcup; 2294 sqcups; 2294+fe00 sqsub; 228f sqsube; 2291"),
  ("sq", "sqsubset; 228f sqsubseteq; 2291 sqsup; 2290 sqsupe; 2292 sqsupset; 2290"),
  ("sq", "sqsupseteq; 2292 squ; 25a1 square; 25a1 squarf; 25aa squf; 25aa"),
  ("sr", "srarr; 2192"),
  ("ss", "sscr; 1d4c8 ssetmn; 2216 ssmile; 2323 sstarf; 22c6"),
  ("st", "star; 2606 starf; 2605 straightepsilon; 3f5 straightphi; 3d5 strns; af"),
  ("su", "sub; 2282 subE; 2ac5 subdot; 2abd sube; 2286 subedot; 2ac3 submult; 2ac1 subnE; 2acb"),
  ("su", "subne; 228a subplus; 2abf subrarr; 2979 subset; 2282 subseteq; 2286 subseteqq; 2ac5"),
  ("su", "subsetneq; 228a subsetneqq; 2acb subsim; 2ac7 subsub; 2ad5 subsup; 2ad3 succ; 227b"),
  ("su", "succapprox; 2ab8 succcurlyeq; 227d succeq; 2ab0 succnapprox; 2aba succneqq; 2ab6"),
  ("su", "succnsim; 22e9 succsim; 227f sum; 2211 sung; 266a sup1 b9 sup1; b9 sup2 b2 sup2; b2"),
  ("su", "sup3 b3 sup3; b3 sup; 2283 supE; 2ac6 supdot; 2abe supdsub; 2ad8 supe; 2287"),
  ("su", "supedot; 2ac4 suphsol; 27c9 suphsub; 2ad7 suplarr; 297b supmult; 2ac2 supnE; 2acc"),
  ("su", "supne; 228b supplus; 2ac0 supset; 2283 supseteq; 2287 supseteqq; 2ac6 supsetneq; 228b"),
  ("su", "supsetneqq; 2acc supsim; 2ac8 supsub; 2ad4 supsup; 2ad6"),
  ("sw", "swArr; 21d9 swarhk; 2926 swarr; 2199 swarrow; 2199 swnwar; 292a"),
  ("sz", "szlig df szlig; df"),
  ("ta", "target; 2316 tau; 3c4"),
  ("tb", "tbrk; 23b4"),
  ("tc", "tcaron; 165 tcedil; 163 tcy; 442"),
  ("td", "tdot; 20db"),
  ("te", "telrec; 2315"),
  ("tf", "tfr; 1d531"),
  ("th", "there4; 2234 therefore; 2234 theta; 3b8 thetasym; 3d1 thetav; 3d1 thickapprox; 2248"),
  ("th", "thicksim; 223c thinsp; 2009 thkap; 2248 thksim; 223c thorn fe thorn; fe"),
  ("ti", "tilde; 2dc times d7 times; d7 timesb; 22a0 timesbar; 2a31 timesd; 2a30 tint; 222d"),
  ("to", "toea; 2928 top; 22a4 topbot; 2336 topcir; 2af1 topf; 1d565 topfork; 2ada tosa; 2929"),
  ("tp", "tprime; 2034"),
  ("tr", "trade; 2122 triangle; 25b5 triangledown; 25bf triangleleft; 25c3 trianglelefteq; 22b4"),
  ("tr", "triangleq; 225c triangleright; 25b9 trianglerighteq; 22b5 tridot; 25ec trie; 225c"),
  ("tr", "triminus; 2a3a triplus; 2a39 trisb; 29cd tritime; 2a3b trpezium; 23e2"),
  ("ts", "tscr; 1d4c9 tscy; 446 tshcy; 45b tstrok; 167"),
  ("tw", "twixt; 226c twoheadleftarrow; 219e twoheadrightarrow; 21a0"),
  ("uA", "uArr; 21d1"),
  ("uH", "uHar; 2963"),
  ("ua", "uacute fa uacute; fa uarr; 2191"),
  ("ub", "ubrcy; 45e ubreve; 16d"),
  ("uc", "ucirc fb ucirc; fb ucy; 443"),
  ("ud", "udarr; 21c5 udblac; 171 udhar; 296e"),
  ("uf", "ufisht; 297e ufr; 1d532"),
  ("ug", "ugrave f9 ugrave; f9"),
  ("uh", "uharl; 21bf uharr; 21be uhblk; 2580"),
  ("ul", "ulcorn; 231c ulcorner; 231c ulcrop; 230f ultri; 25f8"),
  ("um", "umacr; 16b uml a8 uml; a8"),
  ("uo", "uogon; 173 uopf; 1d566"),
  ("up", "uparrow; 2191 updownarrow; 2195 upharpoonleft; 21bf upharpoonright; 21be uplus; 228e"),
  ("up", "upsi; 3c5 upsih; 3d2 upsilon; 3c5 upuparrows; 21c8"),
  ("ur", "urcorn; 231d urcorner; 231d urcrop; 230e uring; 16f urtri; 25f9"),
  ("us", "uscr; 1d4ca"),
  ("ut", "utdot; 22f0 utilde; 169 utri; 25b5 utrif; 25b4"),
  ("uu", "uuarr; 21c8 uuml fc uuml; fc"),
  ("uw", "uwangle; 29a7"),
  ("vA", "vArr; 21d5"),
  ("vB", "vBar; 2ae8 vBarv; 2ae9"),
  ("vD", "vDash; 22a8"),
  ("va", "vangrt; 299c varepsilon; 3f5 varkappa; 3f0 varnothing; 2205 varphi; 3d5 varpi; 3d6"),
  ("va", "varpropto; 221d varr; 2195 varrho; 3f1 varsigma; 3c2 varsubsetneq; 228a+fe00"),
  ("va", "varsubsetneqq; 2acb+fe00 varsupsetneq; 228b+fe00 varsupsetneqq; 2acc+fe00"),
  ("va", "vartheta; 3d1 vartriangleleft; 22b2 vartriangleright; 22b3"),
  ("vc", "vcy; 432"),
  ("vd", "vdash; 22a2"),
  ("ve", "vee; 2228 veebar; 22bb veeeq; 225a vellip; 22ee verbar; 7c vert; 7c"),
  ("vf", "vfr; 1d533"),
  ("vl", "vltri; 22b2"),
  ("vn", "vnsub; 2282+20d2 vnsup; 2283+20d2"),
  ("vo", "vopf; 1d567"),
  ("vp", "vprop; 221d"),
  ("vr", "vrtri; 22b3"),
  ("vs", "vscr; 1d4cb vsubnE; 2acb+fe00 vsubne; 228a+fe00 vsupnE; 2acc+fe00 vsupne; 228b+fe00"),
  ("vz", "vzigzag; 299a"),
  ("wc", "wcirc; 175"),
  ("we", "wedbar; 2a5f wedge; 2227 wedgeq; 2259 weierp; 2118"),
  ("wf", "wfr; 1d534"),
  ("wo", "wopf; 1d568"),
  ("wp", "wp; 2118"),
  ("wr", "wr; 2240 wreath; 2240"),
  ("ws", "wscr; 1d4cc"),
  ("xc", "xcap; 22c2 xcirc; 25ef xcup; 22c3"),
  ("xd", "xdtri; 25bd"),
  ("xf", "xfr; 1d535"),
  ("xh", "xhArr; 27fa xharr; 27f7"),
  ("xi", "xi; 3be"),
  ("xl", "xlArr; 27f8 xlarr; 27f5"),
  ("xm", "xmap; 27fc"),
  ("xn", "xnis; 22fb"),
  ("xo", "xodot; 2a00 xopf; 1d569 xoplus; 2a01 xotime; 2a02"),
  ("xr", "xrArr; 27f9 xrarr; 27f6"),
  ("xs", "xscr; 1d4cd xsqcup; 2a06"),
  ("xu", "xuplus; 2a04 xutri; 25b3"),
  ("xv", "xvee; 22c1"),
  ("xw", "xwedge; 22c0"),
  ("ya", "yacute fd yacute; fd yacy; 44f"),
  ("yc", "ycirc; 177 ycy; 44b"),
  ("ye", "yen a5 yen; a5"),
  ("yf", "yfr; 1d536"),
  ("yi", "yicy; 457"),
  ("yo", "yopf; 1d56a"),
  ("ys", "yscr; 1d4ce"),
  ("yu", "yucy; 44e yuml ff yuml; ff"),
  ("za", "zacute; 17a"),
  ("zc", "zcaron; 17e zcy; 437"),
  ("zd", "zdot; 17c"),
  ("ze", "zeetrf; 2128 zeta; 3b6"),
  ("zf", "zfr; 1d537"),
  ("zh", "zhcy; 436"),
  ("zi", "zigrarr; 21dd"),
  ("zo", "zopf; 1d56b"),
  ("zs", "zscr; 1d4cf"),
  ("zw", "zwj; 200d zwnj; 200c")
]

end CustomElements.Markup
