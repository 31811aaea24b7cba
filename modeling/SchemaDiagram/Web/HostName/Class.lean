import SchemaDiagram.Text.CharMap

/-!
Characters of internationalised names of hosts, as of Unicode 14: which may stand in a name, which
way they are written, which join with their neighbours, and to which script they belong.
-/

set_option autoImplicit false

namespace SchemaDiagram.Web.HostName

open Text (CharMap)

def letters : CharMap := .ofText "
  2d 30-39 61-7a df-f6 f8-ff 101 103 105 107 109 10b 10d 10f 111 113 115 117 119 11b 11d 11f 121
  123 125 127 129 12b 12d 12f 131 135 137-138 13a 13c 13e 142 144 146 148 14b 14d 14f 151 153
  155 157 159 15b 15d 15f 161 163 165 167 169 16b 16d 16f 171 173 175 177 17a 17c 17e 180 183
  185 188 18c-18d 192 195 199-19b 19e 1a1 1a3 1a5 1a8 1aa-1ab 1ad 1b0 1b4 1b6 1b9-1bb 1bd-1c3
  1ce 1d0 1d2 1d4 1d6 1d8 1da 1dc-1dd 1df 1e1 1e3 1e5 1e7 1e9 1eb 1ed 1ef-1f0 1f5 1f9 1fb 1fd
  1ff 201 203 205 207 209 20b 20d 20f 211 213 215 217 219 21b 21d 21f 221 223 225 227 229 22b
  22d 22f 231 233-239 23c 23f-240 242 247 249 24b 24d 24f-2af 2b9-2c1 2c6-2d1 2ec 2ee 300-33f
  342 346-34e 350-36f 371 373 377 37b-37d 390 3ac-3ce 3d7 3d9 3db 3dd 3df 3e1 3e3 3e5 3e7 3e9
  3eb 3ed 3ef 3f3 3f8 3fb-3fc 430-45f 461 463 465 467 469 46b 46d 46f 471 473 475 477 479 47b
  47d 47f 481 483-487 48b 48d 48f 491 493 495 497 499 49b 49d 49f 4a1 4a3 4a5 4a7 4a9 4ab 4ad
  4af 4b1 4b3 4b5 4b7 4b9 4bb 4bd 4bf 4c2 4c4 4c6 4c8 4ca 4cc 4ce-4cf 4d1 4d3 4d5 4d7 4d9 4db
  4dd 4df 4e1 4e3 4e5 4e7 4e9 4eb 4ed 4ef 4f1 4f3 4f5 4f7 4f9 4fb 4fd 4ff 501 503 505 507 509
  50b 50d 50f 511 513 515 517 519 51b 51d 51f 521 523 525 527 529 52b 52d 52f 559 560-586 588
  591-5bd 5bf 5c1-5c2 5c4-5c5 5c7 5d0-5ea 5ef-5f2 610-61a 620-63f 641-65f 66e-674 679-6d3
  6d5-6dc 6df-6e8 6ea-6ef 6fa-6ff 710-74a 74d-7b1 7c0-7f5 7fd 800-82d 840-85b 860-86a 870-887
  889-88e 898-8e1 8e3-957 960-963 966-96f 971-983 985-98c 98f-990 993-9a8 9aa-9b0 9b2 9b6-9b9
  9bc-9c4 9c7-9c8 9cb-9ce 9d7 9e0-9e3 9e6-9f1 9fc 9fe a01-a03 a05-a0a a0f-a10 a13-a28 a2a-a30
  a32 a35 a38-a39 a3c a3e-a42 a47-a48 a4b-a4d a51 a5c a66-a75 a81-a83 a85-a8d a8f-a91 a93-aa8
  aaa-ab0 ab2-ab3 ab5-ab9 abc-ac5 ac7-ac9 acb-acd ad0 ae0-ae3 ae6-aef af9-aff b01-b03 b05-b0c
  b0f-b10 b13-b28 b2a-b30 b32-b33 b35-b39 b3c-b44 b47-b48 b4b-b4d b55-b57 b5f-b63 b66-b6f b71
  b82-b83 b85-b8a b8e-b90 b92-b95 b99-b9a b9c b9e-b9f ba3-ba4 ba8-baa bae-bb9 bbe-bc2 bc6-bc8
  bca-bcd bd0 bd7 be6-bef c00-c0c c0e-c10 c12-c28 c2a-c39 c3c-c44 c46-c48 c4a-c4d c55-c56
  c58-c5a c5d c60-c63 c66-c6f c80-c83 c85-c8c c8e-c90 c92-ca8 caa-cb3 cb5-cb9 cbc-cc4 cc6-cc8
  cca-ccd cd5-cd6 cdd-cde ce0-ce3 ce6-cef cf1-cf2 d00-d0c d0e-d10 d12-d44 d46-d48 d4a-d4e
  d54-d57 d5f-d63 d66-d6f d7a-d7f d81-d83 d85-d96 d9a-db1 db3-dbb dbd dc0-dc6 dca dcf-dd4 dd6
  dd8-ddf de6-def df2-df3 e01-e32 e34-e3a e40-e4e e50-e59 e81-e82 e84 e86-e8a e8c-ea3 ea5
  ea7-eb2 eb4-ebd ec0-ec4 ec6 ec8-ecd ed0-ed9 ede-edf f00 f0b f18-f19 f20-f29 f35 f37 f39
  f3e-f42 f44-f47 f49-f4c f4e-f51 f53-f56 f58-f5b f5d-f68 f6a-f6c f71-f72 f74 f7a-f80 f82-f84
  f86-f92 f94-f97 f99-f9c f9e-fa1 fa3-fa6 fa8-fab fad-fb8 fba-fbc fc6 1000-1049 1050-109d
  10d0-10fa 10fd-10ff 1200-1248 124a-124d 1250-1256 1258 125a-125d 1260-1288 128a-128d 1290-12b0
  12b2-12b5 12b8-12be 12c0 12c2-12c5 12c8-12d6 12d8-1310 1312-1315 1318-135a 135d-135f 1380-138f
  13a0-13f5 1401-166c 166f-167f 1681-169a 16a0-16ea 16f1-16f8 1700-1715 171f-1734 1740-1753
  1760-176c 176e-1770 1772-1773 1780-17b3 17b6-17d3 17d7 17dc-17dd 17e0-17e9 1810-1819 1820-1878
  1880-18aa 18b0-18f5 1900-191e 1920-192b 1930-193b 1946-196d 1970-1974 1980-19ab 19b0-19c9
  19d0-19d9 1a00-1a1b 1a20-1a5e 1a60-1a7c 1a7f-1a89 1a90-1a99 1aa7 1ab0-1abd 1abf-1ace 1b00-1b4c
  1b50-1b59 1b6b-1b73 1b80-1bf3 1c00-1c37 1c40-1c49 1c4d-1c7d 1cd0-1cd2 1cd4-1cfa 1d00-1d2b 1d2f
  1d3b 1d4e 1d6b-1d77 1d79-1d9a 1dc0-1dff 1e01 1e03 1e05 1e07 1e09 1e0b 1e0d 1e0f 1e11 1e13 1e15
  1e17 1e19 1e1b 1e1d 1e1f 1e21 1e23 1e25 1e27 1e29 1e2b 1e2d 1e2f 1e31 1e33 1e35 1e37 1e39 1e3b
  1e3d 1e3f 1e41 1e43 1e45 1e47 1e49 1e4b 1e4d 1e4f 1e51 1e53 1e55 1e57 1e59 1e5b 1e5d 1e5f 1e61
  1e63 1e65 1e67 1e69 1e6b 1e6d 1e6f 1e71 1e73 1e75 1e77 1e79 1e7b 1e7d 1e7f 1e81 1e83 1e85 1e87
  1e89 1e8b 1e8d 1e8f 1e91 1e93 1e95-1e99 1e9c-1e9d 1e9f 1ea1 1ea3 1ea5 1ea7 1ea9 1eab 1ead 1eaf
  1eb1 1eb3 1eb5 1eb7 1eb9 1ebb 1ebd 1ebf 1ec1 1ec3 1ec5 1ec7 1ec9 1ecb 1ecd 1ecf 1ed1 1ed3 1ed5
  1ed7 1ed9 1edb 1edd 1edf 1ee1 1ee3 1ee5 1ee7 1ee9 1eeb 1eed 1eef 1ef1 1ef3 1ef5 1ef7 1ef9 1efb
  1efd 1eff-1f07 1f10-1f15 1f20-1f27 1f30-1f37 1f40-1f45 1f50-1f57 1f60-1f67 1f70 1f72 1f74 1f76
  1f78 1f7a 1f7c 1fb0-1fb1 1fb6 1fc6 1fd0-1fd2 1fd6-1fd7 1fe0-1fe2 1fe4-1fe7 1ff6 214e 2184
  2c30-2c5f 2c61 2c65-2c66 2c68 2c6a 2c6c 2c71 2c73-2c74 2c76-2c7b 2c81 2c83 2c85 2c87 2c89 2c8b
  2c8d 2c8f 2c91 2c93 2c95 2c97 2c99 2c9b 2c9d 2c9f 2ca1 2ca3 2ca5 2ca7 2ca9 2cab 2cad 2caf 2cb1
  2cb3 2cb5 2cb7 2cb9 2cbb 2cbd 2cbf 2cc1 2cc3 2cc5 2cc7 2cc9 2ccb 2ccd 2ccf 2cd1 2cd3 2cd5 2cd7
  2cd9 2cdb 2cdd 2cdf 2ce1 2ce3-2ce4 2cec 2cee-2cf1 2cf3 2d00-2d25 2d27 2d2d 2d30-2d67 2d7f-2d96
  2da0-2da6 2da8-2dae 2db0-2db6 2db8-2dbe 2dc0-2dc6 2dc8-2dce 2dd0-2dd6 2dd8-2dde 2de0-2dff 2e2f
  3005-3007 302a-302d 303c 3041-3096 3099-309a 309d-309e 30a1-30fa 30fc-30fe 3105-312f 31a0-31bf
  31f0-31ff 3400-4dbf 4e00-a48c a4d0-a4fd a500-a60c a610-a62b a641 a643 a645 a647 a649 a64b a64d
  a64f a651 a653 a655 a657 a659 a65b a65d a65f a661 a663 a665 a667 a669 a66b a66d-a66f a674-a67d
  a67f a681 a683 a685 a687 a689 a68b a68d a68f a691 a693 a695 a697 a699 a69b a69e-a6e5 a6f0-a6f1
  a717-a71f a723 a725 a727 a729 a72b a72d a72f-a731 a733 a735 a737 a739 a73b a73d a73f a741 a743
  a745 a747 a749 a74b a74d a74f a751 a753 a755 a757 a759 a75b a75d a75f a761 a763 a765 a767 a769
  a76b a76d a76f a771-a778 a77a a77c a77f a781 a783 a785 a787-a788 a78c a78e-a78f a791 a793-a795
  a797 a799 a79b a79d a79f a7a1 a7a3 a7a5 a7a7 a7a9 a7af a7b5 a7b7 a7b9 a7bb a7bd a7bf a7c1 a7c3
  a7c8 a7ca a7d1 a7d3 a7d5 a7d7 a7d9 a7f6-a7f7 a7fa-a827 a82c a840-a873 a880-a8c5 a8d0-a8d9
  a8e0-a8f7 a8fb a8fd-a92d a930-a953 a980-a9c0 a9cf-a9d9 a9e0-a9fe aa00-aa36 aa40-aa4d aa50-aa59
  aa60-aa76 aa7a-aac2 aadb-aadd aae0-aaef aaf2-aaf6 ab01-ab06 ab09-ab0e ab11-ab16 ab20-ab26
  ab28-ab2e ab30-ab5a ab60-ab68 abc0-abea abec-abed abf0-abf9 ac00-d7a3 fa0e-fa0f fa11 fa13-fa14
  fa1f fa21 fa23-fa24 fa27-fa29 fb1e fe20-fe2f fe73 10000-1000b 1000d-10026 10028-1003a
  1003c-1003d 1003f-1004d 10050-1005d 10080-100fa 101fd 10280-1029c 102a0-102d0 102e0
  10300-1031f 1032d-10340 10342-10349 10350-1037a 10380-1039d 103a0-103c3 103c8-103cf
  10428-1049d 104a0-104a9 104d8-104fb 10500-10527 10530-10563 10597-105a1 105a3-105b1
  105b3-105b9 105bb-105bc 10600-10736 10740-10755 10760-10767 10780 10800-10805 10808
  1080a-10835 10837-10838 1083c 1083f-10855 10860-10876 10880-1089e 108e0-108f2 108f4-108f5
  10900-10915 10920-10939 10980-109b7 109be-109bf 10a00-10a03 10a05-10a06 10a0c-10a13
  10a15-10a17 10a19-10a35 10a38-10a3a 10a3f 10a60-10a7c 10a80-10a9c 10ac0-10ac7 10ac9-10ae6
  10b00-10b35 10b40-10b55 10b60-10b72 10b80-10b91 10c00-10c48 10cc0-10cf2 10d00-10d27
  10d30-10d39 10e80-10ea9 10eab-10eac 10eb0-10eb1 10f00-10f1c 10f27 10f30-10f50 10f70-10f85
  10fb0-10fc4 10fe0-10ff6 11000-11046 11066-11075 1107f-110ba 110c2 110d0-110e8 110f0-110f9
  11100-11134 11136-1113f 11144-11147 11150-11173 11176 11180-111c4 111c9-111cc 111ce-111da
  111dc 11200-11211 11213-11237 1123e 11280-11286 11288 1128a-1128d 1128f-1129d 1129f-112a8
  112b0-112ea 112f0-112f9 11300-11303 11305-1130c 1130f-11310 11313-11328 1132a-11330
  11332-11333 11335-11339 1133b-11344 11347-11348 1134b-1134d 11350 11357 1135d-11363
  11366-1136c 11370-11374 11400-1144a 11450-11459 1145e-11461 11480-114c5 114c7 114d0-114d9
  11580-115b5 115b8-115c0 115d8-115dd 11600-11640 11644 11650-11659 11680-116b8 116c0-116c9
  11700-1171a 1171d-1172b 11730-11739 11740-11746 11800-1183a 118c0-118e9 118ff-11906 11909
  1190c-11913 11915-11916 11918-11935 11937-11938 1193b-11943 11950-11959 119a0-119a7
  119aa-119d7 119da-119e1 119e3-119e4 11a00-11a3e 11a47 11a50-11a99 11a9d 11ab0-11af8
  11c00-11c08 11c0a-11c36 11c38-11c40 11c50-11c59 11c72-11c8f 11c92-11ca7 11ca9-11cb6
  11d00-11d06 11d08-11d09 11d0b-11d36 11d3a 11d3c-11d3d 11d3f-11d47 11d50-11d59 11d60-11d65
  11d67-11d68 11d6a-11d8e 11d90-11d91 11d93-11d98 11da0-11da9 11ee0-11ef6 11fb0 12000-12399
  12480-12543 12f90-12ff0 13000-1342e 14400-14646 16800-16a38 16a40-16a5e 16a60-16a69
  16a70-16abe 16ac0-16ac9 16ad0-16aed 16af0-16af4 16b00-16b36 16b40-16b43 16b50-16b59
  16b63-16b77 16b7d-16b8f 16e60-16e7f 16f00-16f4a 16f4f-16f87 16f8f-16f9f 16fe0-16fe1
  16fe3-16fe4 16ff0-16ff1 17000-187f7 18800-18cd5 18d00-18d08 1aff0-1aff3 1aff5-1affb
  1affd-1affe 1b000-1b122 1b150-1b152 1b164-1b167 1b170-1b2fb 1bc00-1bc6a 1bc70-1bc7c
  1bc80-1bc88 1bc90-1bc99 1bc9d-1bc9e 1cf00-1cf2d 1cf30-1cf46 1da00-1da36 1da3b-1da6c 1da75
  1da84 1da9b-1da9f 1daa1-1daaf 1df00-1df1e 1e000-1e006 1e008-1e018 1e01b-1e021 1e023-1e024
  1e026-1e02a 1e100-1e12c 1e130-1e13d 1e140-1e149 1e14e 1e290-1e2ae 1e2c0-1e2f9 1e7e0-1e7e6
  1e7e8-1e7eb 1e7ed-1e7ee 1e7f0-1e7fe 1e800-1e8c4 1e8d0-1e8d6 1e922-1e94b 1e950-1e959
  20000-2a6df 2a700-2b738 2b740-2b81d 2b820-2cea1 2ceb0-2ebe0 30000-3134a"

def marks : CharMap := .ofText "
  300-33f 342 346-34e 350-36f 483-487 591-5bd 5bf 5c1-5c2 5c4-5c5 5c7 610-61a 64b-65f 670
  6d6-6dc 6df-6e4 6e7-6e8 6ea-6ed 711 730-74a 7a6-7b0 7eb-7f3 7fd 816-819 81b-823 825-827
  829-82d 859-85b 898-89f 8ca-8e1 8e3-903 93a-93c 93e-94f 951-957 962-963 981-983 9bc 9be-9c4
  9c7-9c8 9cb-9cd 9d7 9e2-9e3 9fe a01-a03 a3c a3e-a42 a47-a48 a4b-a4d a51 a70-a71 a75 a81-a83
  abc abe-ac5 ac7-ac9 acb-acd ae2-ae3 afa-aff b01-b03 b3c b3e-b44 b47-b48 b4b-b4d b55-b57
  b62-b63 b82 bbe-bc2 bc6-bc8 bca-bcd bd7 c00-c04 c3c c3e-c44 c46-c48 c4a-c4d c55-c56 c62-c63
  c81-c83 cbc cbe-cc4 cc6-cc8 cca-ccd cd5-cd6 ce2-ce3 d00-d03 d3b-d3c d3e-d44 d46-d48 d4a-d4d
  d57 d62-d63 d81-d83 dca dcf-dd4 dd6 dd8-ddf df2-df3 e31 e34-e3a e47-e4e eb1 eb4-ebc ec8-ecd
  f18-f19 f35 f37 f39 f3e-f3f f71-f72 f74 f7a-f80 f82-f84 f86-f87 f8d-f92 f94-f97 f99-f9c
  f9e-fa1 fa3-fa6 fa8-fab fad-fb8 fba-fbc fc6 102b-103e 1056-1059 105e-1060 1062-1064 1067-106d
  1071-1074 1082-108d 108f 109a-109d 135d-135f 1712-1715 1732-1734 1752-1753 1772-1773 17b6-17d3
  17dd 1885-1886 18a9 1920-192b 1930-193b 1a17-1a1b 1a55-1a5e 1a60-1a7c 1a7f 1ab0-1abd 1abf-1ace
  1b00-1b04 1b34-1b44 1b6b-1b73 1b80-1b82 1ba1-1bad 1be6-1bf3 1c24-1c37 1cd0-1cd2 1cd4-1ce8 1ced
  1cf4 1cf7-1cf9 1dc0-1dff 2cef-2cf1 2d7f 2de0-2dff 302a-302d 3099-309a a66f a674-a67d a69e-a69f
  a6f0-a6f1 a802 a806 a80b a823-a827 a82c a880-a881 a8b4-a8c5 a8e0-a8f1 a8ff a926-a92d a947-a953
  a980-a983 a9b3-a9c0 a9e5 aa29-aa36 aa43 aa4c-aa4d aa7b-aa7d aab0 aab2-aab4 aab7-aab8 aabe-aabf
  aac1 aaeb-aaef aaf5-aaf6 abe3-abea abec-abed fb1e fe20-fe2f 101fd 102e0 10376-1037a
  10a01-10a03 10a05-10a06 10a0c-10a0f 10a38-10a3a 10a3f 10ae5-10ae6 10d24-10d27 10eab-10eac
  10f46-10f50 10f82-10f85 11000-11002 11038-11046 11070 11073-11074 1107f-11082 110b0-110ba
  110c2 11100-11102 11127-11134 11145-11146 11173 11180-11182 111b3-111c0 111c9-111cc
  111ce-111cf 1122c-11237 1123e 112df-112ea 11300-11303 1133b-1133c 1133e-11344 11347-11348
  1134b-1134d 11357 11362-11363 11366-1136c 11370-11374 11435-11446 1145e 114b0-114c3
  115af-115b5 115b8-115c0 115dc-115dd 11630-11640 116ab-116b7 1171d-1172b 1182c-1183a
  11930-11935 11937-11938 1193b-1193e 11940 11942-11943 119d1-119d7 119da-119e0 119e4
  11a01-11a0a 11a33-11a39 11a3b-11a3e 11a47 11a51-11a5b 11a8a-11a99 11c2f-11c36 11c38-11c3f
  11c92-11ca7 11ca9-11cb6 11d31-11d36 11d3a 11d3c-11d3d 11d3f-11d45 11d47 11d8a-11d8e
  11d90-11d91 11d93-11d97 11ef3-11ef6 16af0-16af4 16b30-16b36 16f4f 16f51-16f87 16f8f-16f92
  16fe4 16ff0-16ff1 1bc9d-1bc9e 1cf00-1cf2d 1cf30-1cf46 1da00-1da36 1da3b-1da6c 1da75 1da84
  1da9b-1da9f 1daa1-1daaf 1e000-1e006 1e008-1e018 1e01b-1e021 1e023-1e024 1e026-1e02a
  1e130-1e136 1e2ae 1e2ec-1e2ef 1e8d0-1e8d6 1e944-1e94a"

/-- The directions of the characters that are not written from left to right: 0 from right to left,
    1 from right to left in the Arabic way, 2 an Arabic number, 3 a European one, 4 neutral, and 5
    that of the character before. -/
def directions : CharMap := .ofText "
  2d=4 30-39=3 b7=4 2b9-2ba=4 2c6-2cf=4 2ec=4 300-33f=5 342=5 346-34e=5 350-36f=5 375=4
  483-487=5 591-5bd=5 5bf=5 5c1-5c2=5 5c4-5c5=5 5c7=5 5d0-5ea=0 5ef-5f4=0 610-61a=5 620-63f=1
  641-64a=1 64b-65f=5 660-669=2 66e-66f=1 670=5 671-674=1 679-6d3=1 6d5=1 6d6-6dc=5 6df-6e4=5
  6e5-6e6=1 6e7-6e8=5 6ea-6ed=5 6ee-6ef=1 6f0-6f9=3 6fa-6ff=1 710=1 711=5 712-72f=1 730-74a=5
  74d-7a5=1 7a6-7b0=5 7b1=1 7c0-7ea=0 7eb-7f3=5 7f4-7f5=0 7fd=5 800-815=0 816-819=5 81a=0
  81b-823=5 824=0 825-827=5 828=0 829-82d=5 840-858=0 859-85b=5 860-86a=1 870-887=1 889-88e=1
  898-89f=5 8a0-8c9=1 8ca-8e1=5 8e3-902=5 93a=5 93c=5 941-948=5 94d=5 951-957=5 962-963=5 981=5
  9bc=5 9c1-9c4=5 9cd=5 9e2-9e3=5 9fe=5 a01-a02=5 a3c=5 a41-a42=5 a47-a48=5 a4b-a4d=5 a51=5
  a70-a71=5 a75=5 a81-a82=5 abc=5 ac1-ac5=5 ac7-ac8=5 acd=5 ae2-ae3=5 afa-aff=5 b01=5 b3c=5
  b3f=5 b41-b44=5 b4d=5 b55-b56=5 b62-b63=5 b82=5 bc0=5 bcd=5 c00=5 c04=5 c3c=5 c3e-c40=5
  c46-c48=5 c4a-c4d=5 c55-c56=5 c62-c63=5 c81=5 cbc=5 ccc-ccd=5 ce2-ce3=5 d00-d01=5 d3b-d3c=5
  d41-d44=5 d4d=5 d62-d63=5 d81=5 dca=5 dd2-dd4=5 dd6=5 e31=5 e34-e3a=5 e47-e4e=5 eb1=5
  eb4-ebc=5 ec8-ecd=5 f18-f19=5 f35=5 f37=5 f39=5 f71-f72=5 f74=5 f7a-f7e=5 f80=5 f82-f84=5
  f86-f87=5 f8d-f92=5 f94-f97=5 f99-f9c=5 f9e-fa1=5 fa3-fa6=5 fa8-fab=5 fad-fb8=5 fba-fbc=5
  fc6=5 102d-1030=5 1032-1037=5 1039-103a=5 103d-103e=5 1058-1059=5 105e-1060=5 1071-1074=5
  1082=5 1085-1086=5 108d=5 109d=5 135d-135f=5 1712-1714=5 1732-1733=5 1752-1753=5 1772-1773=5
  17b7-17bd=5 17c6=5 17c9-17d3=5 17dd=5 1885-1886=5 18a9=5 1920-1922=5 1927-1928=5 1932=5
  1939-193b=5 1a17-1a18=5 1a1b=5 1a56=5 1a58-1a5e=5 1a60=5 1a62=5 1a65-1a6c=5 1a73-1a7c=5 1a7f=5
  1ab0-1abd=5 1abf-1ace=5 1b00-1b03=5 1b34=5 1b36-1b3a=5 1b3c=5 1b42=5 1b6b-1b73=5 1b80-1b81=5
  1ba2-1ba5=5 1ba8-1ba9=5 1bab-1bad=5 1be6=5 1be8-1be9=5 1bed=5 1bef-1bf1=5 1c2c-1c33=5
  1c36-1c37=5 1cd0-1cd2=5 1cd4-1ce0=5 1ce2-1ce8=5 1ced=5 1cf4=5 1cf8-1cf9=5 1dc0-1dff=5
  200c-200d=4 2cef-2cf1=5 2d7f=5 2de0-2dff=5 2e2f=4 302a-302d=5 3099-309a=5 30fb=4 a66f=5
  a674-a67d=5 a67f=4 a69e-a69f=5 a6f0-a6f1=5 a717-a71f=4 a788=4 a802=5 a806=5 a80b=5 a825-a826=5
  a82c=5 a8c4-a8c5=5 a8e0-a8f1=5 a8ff=5 a926-a92d=5 a947-a951=5 a980-a982=5 a9b3=5 a9b6-a9b9=5
  a9bc-a9bd=5 a9e5=5 aa29-aa2e=5 aa31-aa32=5 aa35-aa36=5 aa43=5 aa4c=5 aa7c=5 aab0=5 aab2-aab4=5
  aab7-aab8=5 aabe-aabf=5 aac1=5 aaec-aaed=5 aaf6=5 abe5=5 abe8=5 abed=5 fb1e=5 fe20-fe2f=5
  fe73=1 101fd=5 102e0=5 10376-1037a=5 10800-10805=0 10808=0 1080a-10835=0 10837-10838=0 1083c=0
  1083f-10855=0 10860-10876=0 10880-1089e=0 108e0-108f2=0 108f4-108f5=0 10900-10915=0
  10920-10939=0 10980-109b7=0 109be-109bf=0 10a00=0 10a01-10a03=5 10a05-10a06=5 10a0c-10a0f=5
  10a10-10a13=0 10a15-10a17=0 10a19-10a35=0 10a38-10a3a=5 10a3f=5 10a60-10a7c=0 10a80-10a9c=0
  10ac0-10ac7=0 10ac9-10ae4=0 10ae5-10ae6=5 10b00-10b35=0 10b40-10b55=0 10b60-10b72=0
  10b80-10b91=0 10c00-10c48=0 10cc0-10cf2=0 10d00-10d23=1 10d24-10d27=5 10d30-10d39=2
  10e80-10ea9=0 10eab-10eac=5 10eb0-10eb1=0 10f00-10f1c=0 10f27=0 10f30-10f45=1 10f46-10f50=5
  10f70-10f81=0 10f82-10f85=5 10fb0-10fc4=0 10fe0-10ff6=0 11001=5 11038-11046=5 11070=5
  11073-11074=5 1107f-11081=5 110b3-110b6=5 110b9-110ba=5 110c2=5 11100-11102=5 11127-1112b=5
  1112d-11134=5 11173=5 11180-11181=5 111b6-111be=5 111c9-111cc=5 111cf=5 1122f-11231=5 11234=5
  11236-11237=5 1123e=5 112df=5 112e3-112ea=5 11300-11301=5 1133b-1133c=5 11340=5 11366-1136c=5
  11370-11374=5 11438-1143f=5 11442-11444=5 11446=5 1145e=5 114b3-114b8=5 114ba=5 114bf-114c0=5
  114c2-114c3=5 115b2-115b5=5 115bc-115bd=5 115bf-115c0=5 115dc-115dd=5 11633-1163a=5 1163d=5
  1163f-11640=5 116ab=5 116ad=5 116b0-116b5=5 116b7=5 1171d-1171f=5 11722-11725=5 11727-1172b=5
  1182f-11837=5 11839-1183a=5 1193b-1193c=5 1193e=5 11943=5 119d4-119d7=5 119da-119db=5 119e0=5
  11a01-11a06=5 11a09-11a0a=5 11a33-11a38=5 11a3b-11a3e=5 11a47=5 11a51-11a56=5 11a59-11a5b=5
  11a8a-11a96=5 11a98-11a99=5 11c30-11c36=5 11c38-11c3d=5 11c92-11ca7=5 11caa-11cb0=5
  11cb2-11cb3=5 11cb5-11cb6=5 11d31-11d36=5 11d3a=5 11d3c-11d3d=5 11d3f-11d45=5 11d47=5
  11d90-11d91=5 11d95=5 11d97=5 11ef3-11ef4=5 16af0-16af4=5 16b30-16b36=5 16f4f=5 16f8f-16f92=5
  16fe4=5 1bc9d-1bc9e=5 1cf00-1cf2d=5 1cf30-1cf46=5 1da00-1da36=5 1da3b-1da6c=5 1da75=5 1da84=5
  1da9b-1da9f=5 1daa1-1daaf=5 1e000-1e006=5 1e008-1e018=5 1e01b-1e021=5 1e023-1e024=5
  1e026-1e02a=5 1e130-1e136=5 1e2ae=5 1e2ec-1e2ef=5 1e800-1e8c4=0 1e8d0-1e8d6=5 1e922-1e943=0
  1e944-1e94a=5 1e94b=0 1e950-1e959=0"

/-- How letters of cursive scripts join: 0 to the left, 1 to the right, 2 to both sides, 3 they let
    their neighbours join. -/
def joinings : CharMap := .ofText "
  300-33f=3 342=3 346-34e=3 350-36f=3 483-487=3 591-5bd=3 5bf=3 5c1-5c2=3 5c4-5c5=3 5c7=3
  610-61a=3 620=2 622-625=1 626=2 627=1 628=2 629=1 62a-62e=2 62f-632=1 633-63f=2 641-647=2
  648=1 649-64a=2 64b-65f=3 66e-66f=2 670=3 671-673=1 679-687=2 688-699=1 69a-6bf=2 6c0=1
  6c1-6c2=2 6c3-6cb=1 6cc=2 6cd=1 6ce=2 6cf=1 6d0-6d1=2 6d2-6d3=1 6d5=1 6d6-6dc=3 6df-6e4=3
  6e7-6e8=3 6ea-6ed=3 6ee-6ef=1 6fa-6fc=2 6ff=2 710=1 711=3 712-714=2 715-719=1 71a-71d=2 71e=1
  71f-727=2 728=1 729=2 72a=1 72b=2 72c=1 72d-72e=2 72f=1 730-74a=3 74d=1 74e-758=2 759-75b=1
  75c-76a=2 76b-76c=1 76d-770=2 771=1 772=2 773-774=1 775-777=2 778-779=1 77a-77f=2 7a6-7b0=3
  7ca-7ea=2 7eb-7f3=3 7fd=3 816-819=3 81b-823=3 825-827=3 829-82d=3 840=1 841-845=2 846-847=1
  848=2 849=1 84a-853=2 854=1 855=2 856-858=1 859-85b=3 860=2 862-865=2 867=1 868=2 869-86a=1
  870-882=1 886=2 889-88d=2 88e=1 898-89f=3 8a0-8a9=2 8aa-8ac=1 8ae=1 8af-8b0=2 8b1-8b2=1
  8b3-8b8=2 8b9=1 8ba-8c8=2 8ca-8e1=3 8e3-902=3 93a=3 93c=3 941-948=3 94d=3 951-957=3 962-963=3
  981=3 9bc=3 9c1-9c4=3 9cd=3 9e2-9e3=3 9fe=3 a01-a02=3 a3c=3 a41-a42=3 a47-a48=3 a4b-a4d=3
  a51=3 a70-a71=3 a75=3 a81-a82=3 abc=3 ac1-ac5=3 ac7-ac8=3 acd=3 ae2-ae3=3 afa-aff=3 b01=3
  b3c=3 b3f=3 b41-b44=3 b4d=3 b55-b56=3 b62-b63=3 b82=3 bc0=3 bcd=3 c00=3 c04=3 c3c=3 c3e-c40=3
  c46-c48=3 c4a-c4d=3 c55-c56=3 c62-c63=3 c81=3 cbc=3 cbf=3 cc6=3 ccc-ccd=3 ce2-ce3=3 d00-d01=3
  d3b-d3c=3 d41-d44=3 d4d=3 d62-d63=3 d81=3 dca=3 dd2-dd4=3 dd6=3 e31=3 e34-e3a=3 e47-e4e=3
  eb1=3 eb4-ebc=3 ec8-ecd=3 f18-f19=3 f35=3 f37=3 f39=3 f71-f72=3 f74=3 f7a-f7e=3 f80=3
  f82-f84=3 f86-f87=3 f8d-f92=3 f94-f97=3 f99-f9c=3 f9e-fa1=3 fa3-fa6=3 fa8-fab=3 fad-fb8=3
  fba-fbc=3 fc6=3 102d-1030=3 1032-1037=3 1039-103a=3 103d-103e=3 1058-1059=3 105e-1060=3
  1071-1074=3 1082=3 1085-1086=3 108d=3 109d=3 135d-135f=3 1712-1714=3 1732-1733=3 1752-1753=3
  1772-1773=3 17b7-17bd=3 17c6=3 17c9-17d3=3 17dd=3 1820-1878=2 1885-1886=3 1887-18a8=2 18a9=3
  18aa=2 1920-1922=3 1927-1928=3 1932=3 1939-193b=3 1a17-1a18=3 1a1b=3 1a56=3 1a58-1a5e=3 1a60=3
  1a62=3 1a65-1a6c=3 1a73-1a7c=3 1a7f=3 1ab0-1abd=3 1abf-1ace=3 1b00-1b03=3 1b34=3 1b36-1b3a=3
  1b3c=3 1b42=3 1b6b-1b73=3 1b80-1b81=3 1ba2-1ba5=3 1ba8-1ba9=3 1bab-1bad=3 1be6=3 1be8-1be9=3
  1bed=3 1bef-1bf1=3 1c2c-1c33=3 1c36-1c37=3 1cd0-1cd2=3 1cd4-1ce0=3 1ce2-1ce8=3 1ced=3 1cf4=3
  1cf8-1cf9=3 1dc0-1dff=3 2cef-2cf1=3 2d7f=3 2de0-2dff=3 302a-302d=3 3099-309a=3 a66f=3
  a674-a67d=3 a69e-a69f=3 a6f0-a6f1=3 a802=3 a806=3 a80b=3 a825-a826=3 a82c=3 a840-a871=2 a872=0
  a8c4-a8c5=3 a8e0-a8f1=3 a8ff=3 a926-a92d=3 a947-a951=3 a980-a982=3 a9b3=3 a9b6-a9b9=3
  a9bc-a9bd=3 a9e5=3 aa29-aa2e=3 aa31-aa32=3 aa35-aa36=3 aa43=3 aa4c=3 aa7c=3 aab0=3 aab2-aab4=3
  aab7-aab8=3 aabe-aabf=3 aac1=3 aaec-aaed=3 aaf6=3 abe5=3 abe8=3 abed=3 fb1e=3 fe20-fe2f=3
  101fd=3 102e0=3 10376-1037a=3 10a01-10a03=3 10a05-10a06=3 10a0c-10a0f=3 10a38-10a3a=3 10a3f=3
  10ac0-10ac4=2 10ac5=1 10ac7=1 10ac9-10aca=1 10acd=0 10ace-10ad2=1 10ad3-10ad6=2 10ad7=0
  10ad8-10adc=2 10add=1 10ade-10ae0=2 10ae1=1 10ae4=1 10ae5-10ae6=3 10b80=2 10b81=1 10b82=2
  10b83-10b85=1 10b86-10b88=2 10b89=1 10b8a-10b8b=2 10b8c=1 10b8d=2 10b8e-10b8f=1 10b90=2
  10b91=1 10d00=0 10d01-10d21=2 10d22=1 10d23=2 10d24-10d27=3 10eab-10eac=3 10f30-10f32=2
  10f33=1 10f34-10f44=2 10f46-10f50=3 10f70-10f73=2 10f74-10f75=1 10f76-10f81=2 10f82-10f85=3
  10fb0=2 10fb2-10fb3=2 10fb4-10fb6=1 10fb8=2 10fb9-10fba=1 10fbb-10fbc=2 10fbd=1 10fbe-10fbf=2
  10fc1=2 10fc2-10fc3=1 10fc4=2 11001=3 11038-11046=3 11070=3 11073-11074=3 1107f-11081=3
  110b3-110b6=3 110b9-110ba=3 110c2=3 11100-11102=3 11127-1112b=3 1112d-11134=3 11173=3
  11180-11181=3 111b6-111be=3 111c9-111cc=3 111cf=3 1122f-11231=3 11234=3 11236-11237=3 1123e=3
  112df=3 112e3-112ea=3 11300-11301=3 1133b-1133c=3 11340=3 11366-1136c=3 11370-11374=3
  11438-1143f=3 11442-11444=3 11446=3 1145e=3 114b3-114b8=3 114ba=3 114bf-114c0=3 114c2-114c3=3
  115b2-115b5=3 115bc-115bd=3 115bf-115c0=3 115dc-115dd=3 11633-1163a=3 1163d=3 1163f-11640=3
  116ab=3 116ad=3 116b0-116b5=3 116b7=3 1171d=3 1171f=3 11722-11725=3 11727-1172b=3
  1182f-11837=3 11839-1183a=3 1193b-1193c=3 1193e=3 11943=3 119d4-119d7=3 119da-119db=3 119e0=3
  11a01-11a0a=3 11a33-11a38=3 11a3b-11a3e=3 11a47=3 11a51-11a56=3 11a59-11a5b=3 11a8a-11a96=3
  11a98-11a99=3 11c30-11c36=3 11c38-11c3d=3 11c3f=3 11c92-11ca7=3 11caa-11cb0=3 11cb2-11cb3=3
  11cb5-11cb6=3 11d31-11d36=3 11d3a=3 11d3c-11d3d=3 11d3f-11d45=3 11d47=3 11d90-11d91=3 11d95=3
  11d97=3 11ef3-11ef4=3 16af0-16af4=3 16b30-16b36=3 16f4f=3 16f8f-16f92=3 16fe4=3 1bc9d-1bc9e=3
  1cf00-1cf2d=3 1cf30-1cf46=3 1da00-1da36=3 1da3b-1da6c=3 1da75=3 1da84=3 1da9b-1da9f=3
  1daa1-1daaf=3 1e000-1e006=3 1e008-1e018=3 1e01b-1e021=3 1e023-1e024=3 1e026-1e02a=3
  1e130-1e136=3 1e2ae=3 1e2ec-1e2ef=3 1e8d0-1e8d6=3 1e922-1e943=2 1e944-1e94b=3"

def greek : CharMap := .ofText "
  371 373 375 377 37b-37d 390 3ac-3ce 3d7 3d9 3db 3dd 3df 3e1 3f3 3f8 3fb-3fc 1d26-1d2a
  1f00-1f07 1f10-1f15 1f20-1f27 1f30-1f37 1f40-1f45 1f50-1f57 1f60-1f67 1f70 1f72 1f74 1f76 1f78
  1f7a 1f7c 1fb0-1fb1 1fb6 1fc6 1fd0-1fd2 1fd6-1fd7 1fe0-1fe2 1fe4-1fe7 1ff6 ab65"

def hebrew : CharMap := .ofText "
  591-5bd 5bf 5c1-5c2 5c4-5c5 5c7 5d0-5ea 5ef-5f4 fb1e"

def eastAsian : CharMap := .ofText "
  3005 3007 3041-3096 309d-309e 30a1-30fa 30fd-30fe 31f0-31ff 3400-4dbf 4e00-9fff fa0e-fa0f fa11
  fa13-fa14 fa1f fa21 fa23-fa24 fa27-fa29 16fe3 16ff0-16ff1 1aff0-1aff3 1aff5-1affb 1affd-1affe
  1b000-1b122 1b150-1b152 1b164-1b167 20000-2a6df 2a700-2b738 2b740-2b81d 2b820-2cea1
  2ceb0-2ebe0 30000-3134a"

end SchemaDiagram.Web.HostName
